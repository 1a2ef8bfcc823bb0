import Miniverse.Lib.Async

/-!
# What an observer sees

An observer sees a part of the shared state. Programs whose steps it does not see can be left out: the other programs are where
they would be without them, when they look at nothing but what is seen.
-/

namespace Lib

variable {σ τ ι α β ω χ : Type}

namespace Async

/-! ## Programs -/

/-- No step of the program is seen. -/
abbrev Unseen (view : σ → ω) : Async σ α → Prop := All fun f => ∀ s, view (f s) = view s

/-- What the program does, and what is seen of it, depends only on what is seen. -/
def Own (view : σ → ω) : Async σ α → Prop
  | done _ => True
  | step f next => (∀ s t, view s = view t → view (f s) = view (f t) ∧ next s = next t) ∧ ∀ s, Own view (next s)

variable {view : σ → ω}

theorem Own.bind {p : Async σ α} {k : α → Async σ β} (hp : Own view p) (hk : ∀ a, Own view (k a)) : Own view (p >>= k) := by
  induction p with
  | done a => exact hk a
  | step f next ih =>
      refine ⟨fun s t hsame => ?_, fun s => ih s (hp.2 s)⟩
      obtain ⟨hseen, hnext⟩ := hp.1 s t hsame
      exact ⟨hseen, congrArg (· >>= k) hnext⟩

theorem own_look {f : σ → α} (h : ∀ s t, view s = view t → f s = f t) : Own view (look f) :=
  ⟨fun s t hsame => ⟨hsame, congrArg done (h s t hsame)⟩, fun _ => trivial⟩

theorem own_act {f : σ → σ} (h : ∀ s t, view s = view t → view (f s) = view (f t)) : Own view (act f) :=
  ⟨fun s t hsame => ⟨h s t hsame, rfl⟩, fun _ => trivial⟩

theorem unseen_look (f : σ → α) : Unseen view (look f) := ⟨fun _ => rfl, fun _ => trivial⟩

theorem unseen_act {f : σ → σ} (h : ∀ s, view (f s) = view s) : Unseen view (act f) := ⟨h, fun _ => trivial⟩

/-- Two steps from states that look the same. -/
theorem Own.once {p : Async σ α} (h : Own view p) {s t : σ} (hsame : view s = view t) :
    view (p.once s).1 = view (p.once t).1 ∧ (p.once s).2 = (p.once t).2 ∧ Own view (p.once s).2 := by
  cases p with
  | done a => exact ⟨hsame, rfl, trivial⟩
  | step f next =>
      obtain ⟨hseen, hnext⟩ := h.1 s t hsame
      exact ⟨hseen, hnext, h.2 s⟩

/-! ## Parts of the state -/

section Zoom

variable {get : τ → σ} {set : σ → τ → τ} {whole : τ → χ} {p : Async σ α}

/-- A program on a part that shows there what it sees of the whole. -/
theorem Own.zoom (hpart : ∀ s t, whole s = whole t → view (get s) = view (get t))
    (hwhole : ∀ (f : σ → σ) s t, whole s = whole t → view (f (get s)) = view (f (get t)) →
      whole (set (f (get s)) s) = whole (set (f (get t)) t)) (h : Own view p) : Own whole (p.zoom get set) := by
  induction p with
  | done a => exact trivial
  | step f next ih =>
      refine ⟨fun s t hsame => ?_, fun s => ih _ (h.2 _)⟩
      obtain ⟨hseen, hnext⟩ := h.1 _ _ (hpart s t hsame)
      exact ⟨hwhole f s t hsame hseen, congrArg _ hnext⟩

theorem Unseen.zoom (hwhole : ∀ (f : σ → σ) s, view (f (get s)) = view (get s) → whole (set (f (get s)) s) = whole s)
    (h : Unseen view p) : Unseen whole (p.zoom get set) := by
  induction p with
  | done a => exact trivial
  | step f next ih => exact ⟨fun s => hwhole f s (h.1 _), fun s => ih _ (h.2 _)⟩

end Zoom

end Async

/-! ## Requests -/

namespace Arrivals

variable [DecidableEq ι] {request : ι → Async σ α} {view : σ → ω} {own : ι → Bool}

/-- The requests of the observer are at the same place, and what is seen is the same. -/
structure SameSeen (view : σ → ω) (own : ι → Bool) (c c' : Arrivals σ ι α) : Prop where
  shared : view c.shared = view c'.shared
  thread : ∀ i, own i = true → c.thread i = c'.thread i

/-- What is left of each request is still one of the observer, or not seen. -/
structure Separated (request : ι → Async σ α) (view : σ → ω) (own : ι → Bool) (c : Arrivals σ ι α) : Prop where
  observed : ∀ i, own i = true → (c.program request i).Own view
  other : ∀ i, own i = false → (c.program request i).Unseen view

theorem Separated.turn {c : Arrivals σ ι α} (h : Separated request view own c) (i : ι) :
    Separated request view own (c.turn request i) := by
  constructor
  · intro j hj
    by_cases heq : j = i
    · subst heq
      rw [program_turn_self]
      exact ((h.observed j hj).once rfl).2.2
    · rw [program_turn_ne heq]
      exact h.observed j hj
  · intro j hj
    by_cases heq : j = i
    · subst heq
      rw [program_turn_self]
      exact ((h.other j hj).once _).1
    · rw [program_turn_ne heq]
      exact h.other j hj

/-- A turn of the observer on both sides. -/
theorem SameSeen.turn {c c' : Arrivals σ ι α} (h : SameSeen view own c c') (hc : Separated request view own c) {i : ι}
    (hi : own i = true) : SameSeen view own (c.turn request i) (c'.turn request i) := by
  have hprogram : c.program request i = c'.program request i := by rw [program, program, h.thread i hi]
  obtain ⟨hseen, hnext, _⟩ := (hc.observed i hi).once h.shared
  rw [hprogram] at hseen hnext
  refine ⟨?_, fun j hj => ?_⟩
  · show view ((c.program request i).once c.shared).1 = _
    rw [hprogram]
    exact hseen
  · by_cases heq : j = i
    · subst heq
      rw [turn_thread_self, turn_thread_self, hprogram, hnext]
    · rw [turn_thread_ne heq, turn_thread_ne heq]
      exact h.thread j hj

/-- A turn that is not seen, on one side. -/
theorem SameSeen.unseen {c c' : Arrivals σ ι α} (h : SameSeen view own c c') (hc : Separated request view own c) {i : ι}
    (hi : own i = false) : SameSeen view own (c.turn request i) c' := by
  refine ⟨?_, fun j hj => ?_⟩
  · rw [← h.shared]
    rcases ((hc.other i hi).once c.shared).2 with hsame | ⟨f, hf, _, hstep⟩
    · exact congrArg view hsame
    · exact (congrArg view hstep).trans (hf _)
  · have hne : j ≠ i := by
      rintro rfl
      rw [hi] at hj
      cases hj
    rw [turn_thread_ne hne]
    exact h.thread j hj

/-- The observer's requests, and what is seen, are after any turns as they are after the observer's own turns. -/
theorem runs_own (hown : ∀ i, own i = true → (request i).Own view) (hother : ∀ i, own i = false → (request i).Unseen view)
    (schedule : List ι) {s t : σ} (hsame : view s = view t) :
    SameSeen view own (runs (take request) schedule (start s)) (runs (take request) (schedule.filter own) (start t)) := by
  have key : ∀ (c c' : Arrivals σ ι α), Separated request view own c → SameSeen view own c c' →
      SameSeen view own (runs (take request) schedule c) (runs (take request) (schedule.filter own) c') := by
    induction schedule with
    | nil => exact fun _ _ _ h => h
    | cons i schedule ih =>
        intro c c' hc h
        cases hi : own i with
        | true =>
            rw [List.filter_cons_of_pos hi]
            exact ih _ _ (hc.turn i) (h.turn hc hi)
        | false =>
            rw [List.filter_cons_of_neg (by rw [hi]; decide)]
            exact ih _ _ (hc.turn i) (h.unseen hc hi)
  exact key _ _ ⟨fun i hi => hown i hi, fun i hi => hother i hi⟩ ⟨hsame, fun _ _ => rfl⟩

end Arrivals

end Lib
