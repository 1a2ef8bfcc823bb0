import Mathlib.Order.Defs.Unbundled
import Mathlib.Tactic.Common

/-!
# Computations with a state and exceptions

A computation takes a state, returns a value or raises, and leaves a state behind in both cases:
what was done before an exception stays done. The rules below follow the structure of a computation,
so a proof about a function of a program is one application of a rule for each of its lines.
-/

namespace Lib

/-- A computation on the state `σ` that returns an `α` or raises an `ε`. -/
def Eff (σ ε α : Type) : Type := σ → Except ε α × σ

namespace Eff

variable {σ τ ε α β : Type}

protected def pure (a : α) : Eff σ ε α := fun s => (.ok a, s)

protected def bind (m : Eff σ ε α) (k : α → Eff σ ε β) : Eff σ ε β := fun s =>
  match m s with
  | (.ok a, s') => k a s'
  | (.error e, s') => (.error e, s')

instance : Monad (Eff σ ε) where
  pure := Eff.pure
  bind := Eff.bind

instance : LawfulMonad (Eff σ ε) := LawfulMonad.mk' _
  (fun m => by
    funext s
    show Eff.bind m (fun a => Eff.pure (id a)) s = m s
    unfold Eff.bind Eff.pure
    rcases m s with ⟨_ | _, _⟩ <;> rfl)
  (fun _ _ => rfl)
  (fun m f g => by
    funext s
    show Eff.bind (Eff.bind m f) g s = Eff.bind m (fun a => Eff.bind (f a) g) s
    unfold Eff.bind
    rcases m s with ⟨_ | _, _⟩ <;> rfl)

/-- Raise an exception. -/
def raise (e : ε) : Eff σ ε α := fun s => (.error e, s)

/-- Read the state. -/
def read (f : σ → α) : Eff σ ε α := fun s => (.ok (f s), s)

/-- Change the state. -/
def modify (f : σ → σ) : Eff σ ε Unit := fun s => (.ok (), f s)

/-- A result computed without the state. -/
def ofExcept : Except ε α → Eff σ ε α
  | .ok a => Eff.pure a
  | .error e => raise e

/-- Raise the exception when the condition holds. -/
def raiseIf (c : Bool) (e : ε) : Eff σ ε Unit := if c then raise e else Eff.pure ()

/-- Run the computation when the condition holds. -/
def when (c : Bool) (m : Eff σ ε Unit) : Eff σ ε Unit := if c then m else Eff.pure ()

/-- The value, or the exception when there is none. -/
def getOr (o : Option α) (e : ε) : Eff σ ε α :=
  match o with
  | some a => Eff.pure a
  | none => raise e

/-- Run `h` on the exception of `m`, in the state `m` left behind. -/
def attempt (m : Eff σ ε α) (h : ε → Eff σ ε α) : Eff σ ε α := fun s =>
  match m s with
  | (.ok a, s') => (.ok a, s')
  | (.error e, s') => h e s'

/-- Run a computation on a part of the state. -/
def zoom (get : τ → σ) (set : σ → τ → τ) (m : Eff σ ε α) : Eff τ ε α := fun t =>
  let r := m (get t)
  (r.1, set r.2 t)

/-! ## Running -/

@[simp] theorem pure_run (a : α) (s : σ) : (pure a : Eff σ ε α) s = (.ok a, s) := rfl

@[simp] theorem raise_run (e : ε) (s : σ) : (raise e : Eff σ ε α) s = (.error e, s) := rfl

@[simp] theorem read_run (f : σ → α) (s : σ) : (read f : Eff σ ε α) s = (.ok (f s), s) := rfl

@[simp] theorem modify_run (f : σ → σ) (s : σ) : (modify f : Eff σ ε Unit) s = (.ok (), f s) := rfl

@[simp] theorem ofExcept_ok (a : α) (s : σ) : (ofExcept (.ok a) : Eff σ ε α) s = (.ok a, s) := rfl

@[simp] theorem ofExcept_error (e : ε) (s : σ) : (ofExcept (.error e) : Eff σ ε α) s = (.error e, s) := rfl

@[simp] theorem raiseIf_false (e : ε) (s : σ) : (raiseIf false e : Eff σ ε Unit) s = (.ok (), s) := rfl

@[simp] theorem raiseIf_true (e : ε) (s : σ) : (raiseIf true e : Eff σ ε Unit) s = (.error e, s) := rfl

@[simp] theorem when_true (m : Eff σ ε Unit) : when true m = m := rfl

@[simp] theorem when_false (m : Eff σ ε Unit) : when false m = Eff.pure () := rfl

@[simp] theorem getOr_some (a : α) (e : ε) (s : σ) : (getOr (some a) e : Eff σ ε α) s = (.ok a, s) := rfl

@[simp] theorem getOr_none (e : ε) (s : σ) : (getOr none e : Eff σ ε α) s = (.error e, s) := rfl

theorem bind_run (m : Eff σ ε α) (k : α → Eff σ ε β) (s : σ) :
    (m >>= k) s = match m s with
      | (.ok a, s') => k a s'
      | (.error e, s') => (.error e, s') := rfl

theorem bind_run_ok {m : Eff σ ε α} {s s' : σ} {a : α} (h : m s = (.ok a, s')) (k : α → Eff σ ε β) :
    (m >>= k) s = k a s' := by
  rw [bind_run, h]

theorem bind_run_error {m : Eff σ ε α} {s s' : σ} {e : ε} (h : m s = (.error e, s'))
    (k : α → Eff σ ε β) : (m >>= k) s = (.error e, s') := by
  rw [bind_run, h]

@[simp] theorem pure_bind_run (a : α) (k : α → Eff σ ε β) (s : σ) : ((pure a : Eff σ ε α) >>= k) s = k a s :=
  rfl

@[simp] theorem read_bind_run (f : σ → α) (k : α → Eff σ ε β) (s : σ) :
    ((read f : Eff σ ε α) >>= k) s = k (f s) s := rfl

@[simp] theorem modify_bind_run (f : σ → σ) (k : Unit → Eff σ ε β) (s : σ) :
    ((modify f : Eff σ ε Unit) >>= k) s = k () (f s) := rfl

@[simp] theorem raiseIf_false_bind (e : ε) (k : Unit → Eff σ ε β) (s : σ) :
    ((raiseIf false e : Eff σ ε Unit) >>= k) s = k () s := rfl

@[simp] theorem raiseIf_true_bind (e : ε) (k : Unit → Eff σ ε β) (s : σ) :
    ((raiseIf true e : Eff σ ε Unit) >>= k) s = (.error e, s) := rfl

@[simp] theorem ofExcept_ok_bind (a : α) (k : α → Eff σ ε β) (s : σ) :
    ((ofExcept (.ok a) : Eff σ ε α) >>= k) s = k a s := rfl

@[simp] theorem ofExcept_error_bind (e : ε) (k : α → Eff σ ε β) (s : σ) :
    ((ofExcept (.error e) : Eff σ ε α) >>= k) s = (.error e, s) := rfl

@[simp] theorem getOr_some_bind (a : α) (e : ε) (k : α → Eff σ ε β) (s : σ) :
    ((getOr (some a) e : Eff σ ε α) >>= k) s = k a s := rfl

@[simp] theorem getOr_none_bind (e : ε) (k : α → Eff σ ε β) (s : σ) :
    ((getOr none e : Eff σ ε α) >>= k) s = (.error e, s) := rfl

@[simp] theorem raise_bind_run (e : ε) (k : α → Eff σ ε β) (s : σ) :
    ((raise e : Eff σ ε α) >>= k) s = (.error e, s) := rfl

theorem attempt_ok {m : Eff σ ε α} {s s' : σ} {a : α} (h : m s = (.ok a, s')) (k : ε → Eff σ ε α) :
    m.attempt k s = (.ok a, s') := by
  rw [attempt, h]

theorem attempt_error {m : Eff σ ε α} {s s' : σ} {e : ε} (h : m s = (.error e, s')) (k : ε → Eff σ ε α) :
    m.attempt k s = k e s' := by
  rw [attempt, h]

theorem raiseIf_ok {c : Bool} {e : ε} {s s' : σ} {a : Unit} (h : (raiseIf c e : Eff σ ε Unit) s = (.ok a, s')) :
    c = false ∧ s' = s := by
  cases c with
  | true => cases h
  | false =>
      cases h
      exact ⟨rfl, rfl⟩

theorem getOr_ok {o : Option α} {e : ε} {s s' : σ} {a : α} (h : (getOr o e : Eff σ ε α) s = (.ok a, s')) :
    o = some a ∧ s' = s := by
  cases o with
  | none => cases h
  | some b =>
      cases h
      exact ⟨rfl, rfl⟩

/-- What is made of a value leaves the state alone. -/
theorem bind_pure_state (m : Eff σ ε α) (f : α → β) (s : σ) : ((m >>= fun a => pure (f a)) s).2 = (m s).2 := by
  rw [bind_run]
  rcases m s with ⟨_ | _, _⟩ <;> rfl

/-- A sequence returned: so did both parts. -/
theorem bind_ok {m : Eff σ ε α} {k : α → Eff σ ε β} {s s'' : σ} {b : β} (h : (m >>= k) s = (.ok b, s'')) :
    ∃ a s', m s = (.ok a, s') ∧ k a s' = (.ok b, s'') := by
  rw [bind_run] at h
  rcases hm : m s with ⟨_ | a, s'⟩
  · simp [hm] at h
  · exact ⟨a, s', rfl, by simpa [hm] using h⟩

/-- A sequence raised: one of the parts did. -/
theorem bind_error {m : Eff σ ε α} {k : α → Eff σ ε β} {s s'' : σ} {e : ε}
    (h : (m >>= k) s = (.error e, s'')) :
    m s = (.error e, s'') ∨ ∃ a s', m s = (.ok a, s') ∧ k a s' = (.error e, s'') := by
  rw [bind_run] at h
  rcases hm : m s with ⟨e' | a, s'⟩
  · simp only [hm, Prod.mk.injEq, Except.error.injEq] at h
    obtain ⟨rfl, rfl⟩ := h
    exact Or.inl rfl
  · exact Or.inr ⟨a, s', rfl, by simpa [hm] using h⟩

/-! ## Loops -/

/-- What every turn keeps about the elements handled so far holds of all of them at the end. -/
theorem forM_returned {P : List α → σ → Prop} {f : α → Eff σ ε PUnit} {xs : List α}
    (hstep : ∀ done x rest, xs = done ++ x :: rest → ∀ s s', P done s → f x s = (.ok (), s') → P (done ++ [x]) s')
    {s s' : σ} (hstart : P [] s) (h : xs.forM f s = (.ok (), s')) : P xs s' := by
  -- the elements handled so far move from the right list to the left one
  have key (rest : List α) : ∀ done s, xs = done ++ rest → P done s → rest.forM f s = (.ok (), s') → P xs s' := by
    induction rest with
    | nil =>
        intro done s hxs hdone h
        cases h
        rwa [hxs, List.append_nil]
    | cons x rest ih =>
        intro done s hxs hdone h
        rw [List.forM_eq_forM, List.forM_cons] at h
        obtain ⟨_, s₁, hx, hrest⟩ := bind_ok h
        exact ih (done ++ [x]) s₁ (by rw [hxs, List.append_assoc]; rfl) (hstep done x rest hxs s s₁ hdone hx) hrest
  exact key xs [] s rfl hstart h

/-- A loop that raised did so at one element, after it returned from all before it. -/
theorem forM_raised {f : α → Eff σ ε PUnit} {xs : List α} {s s' : σ} {e : ε} (h : xs.forM f s = (.error e, s')) :
    ∃ done x rest s₁, xs = done ++ x :: rest ∧ done.forM f s = (.ok (), s₁) ∧ f x s₁ = (.error e, s') := by
  induction xs generalizing s with
  | nil => cases h
  | cons x xs ih =>
      rw [List.forM_eq_forM, List.forM_cons] at h
      rcases bind_error h with hx | ⟨_, s₁, hx, hxs⟩
      · exact ⟨[], x, xs, s, rfl, rfl, hx⟩
      · obtain ⟨done, y, rest, s₂, hxs, hdone, hy⟩ := ih hxs
        refine ⟨x :: done, y, rest, s₂, by rw [hxs, List.cons_append], ?_, hy⟩
        rw [List.forM_eq_forM, List.forM_cons, bind_run_ok hx]
        exact hdone

/-! ## What a computation does to the state -/

/-- Every run of `m` moves the state along `R`, whether it returns or raises. -/
def Within (R : σ → σ → Prop) (m : Eff σ ε α) : Prop := ∀ s, R s (m s).2

section Within

variable {R : σ → σ → Prop} [Std.Refl R] [IsTrans σ R]

omit [IsTrans σ R] in
theorem Within.pure (a : α) : Within R (Pure.pure a : Eff σ ε α) := fun s => Std.Refl.refl s

omit [IsTrans σ R] in
theorem Within.raise (e : ε) : Within R (Eff.raise e : Eff σ ε α) := fun s => Std.Refl.refl s

omit [IsTrans σ R] in
theorem Within.read (f : σ → α) : Within R (Eff.read f : Eff σ ε α) := fun s => Std.Refl.refl s

omit [IsTrans σ R] in
theorem Within.ofExcept (x : Except ε α) : Within R (Eff.ofExcept x : Eff σ ε α) := by
  cases x with
  | ok a => exact Within.pure a
  | error e => exact Within.raise e

omit [IsTrans σ R] in
theorem Within.raiseIf (c : Bool) (e : ε) : Within R (Eff.raiseIf c e : Eff σ ε Unit) := by
  cases c with
  | true => exact Within.raise e
  | false => exact Within.pure ()

omit [IsTrans σ R] in
theorem Within.getOr (o : Option α) (e : ε) : Within R (Eff.getOr o e : Eff σ ε α) := by
  cases o with
  | some a => exact Within.pure a
  | none => exact Within.raise e

omit [IsTrans σ R] in
/-- After a computed result, only a returned one is left to look at. -/
theorem Within.ofExcept_bind {x : Except ε α} {k : α → Eff σ ε β}
    (h : ∀ a, x = .ok a → Within R (k a)) : Within R (Eff.ofExcept x >>= k) := by
  cases x with
  | ok a => exact h a rfl
  | error e => exact Within.raise e

omit [IsTrans σ R] in
theorem Within.getOr_bind {o : Option α} {e : ε} {k : α → Eff σ ε β}
    (h : ∀ a, o = some a → Within R (k a)) : Within R (Eff.getOr o e >>= k) := by
  cases o with
  | some a => exact h a rfl
  | none => exact Within.raise e

omit [Std.Refl R] [IsTrans σ R] in
theorem Within.modify {f : σ → σ} (h : ∀ s, R s (f s)) : Within R (Eff.modify f : Eff σ ε Unit) := h

omit [Std.Refl R] in
theorem Within.bind {m : Eff σ ε α} {k : α → Eff σ ε β} (hm : Within R m) (hk : ∀ a, Within R (k a)) :
    Within R (m >>= k) := by
  intro s
  have h := hm s
  rw [bind_run]
  rcases hs : m s with ⟨e | a, s'⟩
  · simpa only [hs] using h
  · rw [hs] at h
    exact trans_of R h (hk a s')

omit [Std.Refl R] in
theorem Within.attempt {m : Eff σ ε α} {h : ε → Eff σ ε α} (hm : Within R m) (hh : ∀ e, Within R (h e)) :
    Within R (m.attempt h) := by
  intro s
  have h₁ := hm s
  unfold Eff.attempt
  rcases hs : m s with ⟨e | a, s'⟩
  · rw [hs] at h₁
    exact trans_of R h₁ (hh e s')
  · simpa only [hs] using h₁

theorem Within.forM {xs : List α} {f : α → Eff σ ε PUnit} (hf : ∀ a ∈ xs, Within R (f a)) :
    Within R (xs.forM f) := by
  induction xs with
  | nil => exact Within.pure _
  | cons x xs ih =>
      rw [List.forM_eq_forM, List.forM_cons]
      exact (hf x List.mem_cons_self).bind fun _ => ih fun a ha => hf a (List.mem_cons_of_mem _ ha)

/-- Each turn of a loop may rely on what the turns before it kept. -/
theorem Within.forM_keeping {P : σ → Prop} {xs : List α} {f : α → Eff σ ε PUnit}
    (hf : ∀ a ∈ xs, ∀ s, P s → R s (f a s).2 ∧ P (f a s).2) : ∀ s, P s → R s (xs.forM f s).2 := by
  induction xs with
  | nil => exact fun s _ => Std.Refl.refl s
  | cons x xs ih =>
      intro s hs
      obtain ⟨hr, hp⟩ := hf x List.mem_cons_self s hs
      rw [List.forM_eq_forM, List.forM_cons, bind_run]
      rcases hx : f x s with ⟨e | a, s'⟩
      · simpa only [hx] using hr
      · rw [hx] at hr hp
        exact trans_of R hr (ih (fun a ha => hf a (List.mem_cons_of_mem _ ha)) s' hp)

theorem Within.mapM {xs : List α} {f : α → Eff σ ε β} (hf : ∀ a ∈ xs, Within R (f a)) : Within R (xs.mapM f) := by
  induction xs with
  | nil => exact Within.pure _
  | cons x xs ih =>
      rw [List.mapM_cons]
      exact (hf x List.mem_cons_self).bind fun _ =>
        (ih fun a ha => hf a (List.mem_cons_of_mem _ ha)).bind fun _ => Within.pure _

omit [Std.Refl R] [IsTrans σ R] in
/-- What is read is known to come from the state. -/
theorem Within.read_bind {f : σ → α} {k : α → Eff σ ε β} (h : ∀ s, R s (k (f s) s).2) : Within R (Eff.read f >>= k) := h

omit [Std.Refl R] [IsTrans σ R] in
theorem Within.ite {c : Prop} [Decidable c] {m n : Eff σ ε α} (hm : Within R m) (hn : Within R n) :
    Within R (if c then m else n) := by
  split
  · exact hm
  · exact hn

omit [IsTrans σ R] in
theorem Within.when {c : Bool} {m : Eff σ ε Unit} (hm : c = true → Within R m) : Within R (Eff.when c m) := by
  cases c with
  | true => exact hm rfl
  | false => exact Within.pure ()

omit [Std.Refl R] [IsTrans σ R] in
theorem Within.elim {o : Option α} {m : Eff σ ε β} {f : α → Eff σ ε β} (hm : Within R m)
    (hf : ∀ a, o = some a → Within R (f a)) : Within R (o.elim m f) := by
  cases o with
  | none => exact hm
  | some a => exact hf a rfl

omit [Std.Refl R] [IsTrans σ R] in
theorem Within.zoom {get : τ → σ} {set : σ → τ → τ} {Q : τ → τ → Prop} {m : Eff σ ε α} (hm : Within R m)
    (hQ : ∀ t s, R (get t) s → Q t (set s t)) : Within Q (m.zoom get set) :=
  fun t => hQ t _ (hm (get t))

end Within

/-- Keeping a predicate is moving along an implication, which is reflexive and transitive. -/
abbrev Keeping (I : σ → Prop) : σ → σ → Prop := fun s s' => I s → I s'

instance (I : σ → Prop) : Std.Refl (Keeping I) := ⟨fun _ h => h⟩

instance (I : σ → Prop) : IsTrans σ (Keeping I) := ⟨fun _ _ _ h₁ h₂ h => h₂ (h₁ h)⟩

/-- `m` keeps `I`, whether it returns or raises. -/
abbrev Keeps (I : σ → Prop) (m : Eff σ ε α) : Prop := Within (Keeping I) m

/-! ## What a computation returns -/

/-- Every value that `m` returns satisfies `Q`. -/
def Returns (Q : α → Prop) (m : Eff σ ε α) : Prop := ∀ s a s', m s = (.ok a, s') → Q a

theorem Returns.pure {Q : α → Prop} {a : α} (h : Q a) : Returns Q (Pure.pure a : Eff σ ε α) := by
  intro s b s' hs
  simp only [pure_run, Prod.mk.injEq, Except.ok.injEq] at hs
  exact hs.1 ▸ h

theorem Returns.bind {Q : β → Prop} {m : Eff σ ε α} {k : α → Eff σ ε β} (h : ∀ a, Returns Q (k a)) :
    Returns Q (m >>= k) := by
  intro s b s'' hs
  obtain ⟨a, s', _, hk⟩ := bind_ok hs
  exact h a s' b s'' hk

/-- A computation that goes on only with values that the first part can return. -/
theorem Within.bind_returns {R : σ → σ → Prop} [IsTrans σ R] {Q : α → Prop} {m : Eff σ ε α} {k : α → Eff σ ε β}
    (hm : Within R m) (hq : Returns Q m) (hk : ∀ a, Q a → Within R (k a)) : Within R (m >>= k) := by
  intro s
  have h := hm s
  rw [bind_run]
  rcases hs : m s with ⟨e | a, s'⟩
  · simpa only [hs] using h
  · rw [hs] at h
    exact trans_of R h (hk a (hq s a s' hs) s')

/-- A sequence raised, after a first part that stays within `R` or in it. -/
theorem Within.of_run {R : σ → σ → Prop} {m : Eff σ ε α} {s s' : σ} {r : Except ε α} (h : m s = (r, s'))
    (hm : Within R m) : R s s' := by
  have hs := hm s
  rwa [h] at hs

theorem Within.bind_error {R : σ → σ → Prop} {m : Eff σ ε α} {k : α → Eff σ ε β} {s s'' : σ} {e : ε} (hm : Within R m)
    (h : (m >>= k) s = (.error e, s'')) :
    R s s'' ∨ ∃ a s', R s s' ∧ m s = (.ok a, s') ∧ k a s' = (.error e, s'') := by
  have hr := hm s
  rcases Eff.bind_error h with h | ⟨a, s', hs, hk⟩
  · rw [h] at hr
    exact Or.inl hr
  · rw [hs] at hr
    exact Or.inr ⟨a, s', hr, hs, hk⟩

/-- A sequence returned, after a first part that stays within `R`. -/
theorem Within.bind_ok {R : σ → σ → Prop} {m : Eff σ ε α} {k : α → Eff σ ε β} {s s'' : σ} {b : β} (hm : Within R m)
    (h : (m >>= k) s = (.ok b, s'')) : ∃ a s', R s s' ∧ m s = (.ok a, s') ∧ k a s' = (.ok b, s'') := by
  obtain ⟨a, s', hs, hk⟩ := Eff.bind_ok h
  have hr := hm s
  rw [hs] at hr
  exact ⟨a, s', hr, hs, hk⟩

/-! ## Two runs of one computation -/

/-- From related states, `m` gives the same result and related states. -/
def Alike (R : σ → σ → Prop) (m : Eff σ ε α) : Prop :=
  ∀ s t, R s t → (m s).1 = (m t).1 ∧ R (m s).2 (m t).2

/-- The same, from two given states. -/
def AlikeAt (R : σ → σ → Prop) (m : Eff σ ε α) (s t : σ) : Prop := (m s).1 = (m t).1 ∧ R (m s).2 (m t).2

variable {R : σ → σ → Prop}

theorem Alike.pure (a : α) : Alike R (Pure.pure a : Eff σ ε α) := fun _ _ h => ⟨rfl, h⟩

theorem Alike.raise (e : ε) : Alike R (Eff.raise e : Eff σ ε α) := fun _ _ h => ⟨rfl, h⟩

theorem Alike.ofExcept (x : Except ε α) : Alike R (Eff.ofExcept x : Eff σ ε α) := by
  cases x with
  | ok a => exact Alike.pure a
  | error e => exact Alike.raise e

theorem Alike.raiseIf (c : Bool) (e : ε) : Alike R (Eff.raiseIf c e : Eff σ ε Unit) := by
  cases c with
  | true => exact Alike.raise e
  | false => exact Alike.pure ()

theorem Alike.getOr (o : Option α) (e : ε) : Alike R (Eff.getOr o e : Eff σ ε α) := by
  cases o with
  | some a => exact Alike.pure a
  | none => exact Alike.raise e

theorem Alike.read {f : σ → α} (hf : ∀ s t, R s t → f s = f t) : Alike R (Eff.read f : Eff σ ε α) :=
  fun s t h => ⟨by simp [hf s t h], h⟩

theorem Alike.bind_returns {Q : α → Prop} {m : Eff σ ε α} {k : α → Eff σ ε β} (hm : Alike R m) (hq : Returns Q m)
    (hk : ∀ a, Q a → Alike R (k a)) : Alike R (m >>= k) := by
  intro s t h
  obtain ⟨hv, hr⟩ := hm s t h
  rw [bind_run, bind_run]
  rcases hs : m s with ⟨vs, s'⟩
  rcases ht : m t with ⟨vt, t'⟩
  simp only [hs, ht] at hv hr
  subst hv
  cases vs with
  | error e => exact ⟨rfl, hr⟩
  | ok a => exact hk a (hq s a s' hs) s' t' hr

theorem Alike.bind {m : Eff σ ε α} {k : α → Eff σ ε β} (hm : Alike R m) (hk : ∀ a, Alike R (k a)) :
    Alike R (m >>= k) :=
  hm.bind_returns (Q := fun _ => True) (fun _ _ _ _ => trivial) fun a _ => hk a

theorem Alike.ofExcept_bind {x : Except ε α} {k : α → Eff σ ε β} (h : ∀ a, x = .ok a → Alike R (k a)) :
    Alike R (Eff.ofExcept x >>= k) := by
  cases x with
  | ok a => exact h a rfl
  | error e => exact Alike.raise e

theorem Alike.attempt {m : Eff σ ε α} {h : ε → Eff σ ε α} (hm : Alike R m) (hh : ∀ e, Alike R (h e)) :
    Alike R (m.attempt h) := by
  intro s t hst
  obtain ⟨hv, hr⟩ := hm s t hst
  unfold Eff.attempt
  rcases hs : m s with ⟨vs, s'⟩
  rcases ht : m t with ⟨vt, t'⟩
  simp only [hs, ht] at hv hr
  subst hv
  cases vs with
  | error e => exact hh e s' t' hr
  | ok a => exact ⟨rfl, hr⟩

theorem Alike.forM {xs : List α} {f : α → Eff σ ε PUnit} (hf : ∀ a ∈ xs, Alike R (f a)) :
    Alike R (xs.forM f) := by
  induction xs with
  | nil => exact Alike.pure _
  | cons x xs ih =>
      rw [List.forM_eq_forM, List.forM_cons]
      exact (hf x List.mem_cons_self).bind fun _ => ih fun a ha => hf a (List.mem_cons_of_mem _ ha)

theorem Alike.ite {c : Prop} [Decidable c] {m n : Eff σ ε α} (hm : Alike R m) (hn : Alike R n) :
    Alike R (if c then m else n) := by
  split
  · exact hm
  · exact hn

theorem Alike.modify {f : σ → σ} (h : ∀ s t, R s t → R (f s) (f t)) : Alike R (Eff.modify f : Eff σ ε Unit) :=
  fun s t hst => ⟨rfl, h s t hst⟩

theorem Alike.mapM {xs : List α} {f : α → Eff σ ε β} (hf : ∀ a ∈ xs, Alike R (f a)) : Alike R (xs.mapM f) := by
  induction xs with
  | nil => exact Alike.pure _
  | cons x xs ih =>
      rw [List.mapM_cons]
      exact (hf x List.mem_cons_self).bind fun _ =>
        (ih fun a ha => hf a (List.mem_cons_of_mem _ ha)).bind fun _ => Alike.pure _

theorem Alike.when {c : Bool} {m : Eff σ ε Unit} (hm : Alike R m) : Alike R (Eff.when c m) := by
  cases c with
  | true => exact hm
  | false => exact Alike.pure ()

theorem Alike.elim {o : Option α} {m : Eff σ ε β} {f : α → Eff σ ε β} (hm : Alike R m) (hf : ∀ a, Alike R (f a)) :
    Alike R (o.elim m f) := by
  cases o with
  | none => exact hm
  | some a => exact hf a

theorem AlikeAt.bind {m : Eff σ ε α} {k : α → Eff σ ε β} {s t : σ} (hm : AlikeAt R m s t) (hk : ∀ a, Alike R (k a)) :
    AlikeAt R (m >>= k) s t := by
  obtain ⟨hv, hr⟩ := hm
  rw [AlikeAt, bind_run, bind_run]
  rcases hs : m s with ⟨vs, s'⟩
  rcases ht : m t with ⟨vt, t'⟩
  simp only [hs, ht] at hv hr
  subst hv
  cases vs with
  | error e => exact ⟨rfl, hr⟩
  | ok a => exact hk a s' t' hr

theorem AlikeAt.zoom {get : τ → σ} {set : σ → τ → τ} {Q : τ → τ → Prop} {m : Eff σ ε α} {t u : τ} (hm : AlikeAt R m (get t) (get u))
    (hset : ∀ s s', R s s' → Q (set s t) (set s' u)) : AlikeAt Q (m.zoom get set) t u := ⟨hm.1, hset _ _ hm.2⟩

theorem Alike.zoom {get : τ → σ} {set : σ → τ → τ} {Q : τ → τ → Prop} {m : Eff σ ε α} (hm : Alike R m)
    (hget : ∀ t u, Q t u → R (get t) (get u)) (hset : ∀ t u s s', Q t u → R s s' → Q (set s t) (set s' u)) :
    Alike Q (m.zoom get set) := fun t u h => AlikeAt.zoom (hm _ _ (hget t u h)) fun _ _ => hset t u _ _ h

end Eff

end Lib
