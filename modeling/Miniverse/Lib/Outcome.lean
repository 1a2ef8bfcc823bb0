import Miniverse.Lib.Disk

/-!
# Exceptions and logs

Which exceptions a computation can raise, and what it writes down while it runs. The log is a second state next to the
state: when it is forgotten, a logged computation is the one that it logs.
-/

namespace Lib

namespace Eff

variable {σ τ ε α β : Type}

/-! ## What a computation raises -/

/-- Every exception that `m` raises satisfies `Q`. -/
def Raises (Q : ε → Prop) (m : Eff σ ε α) : Prop := ∀ s e s', m s = (.error e, s') → Q e

variable {Q : ε → Prop}

theorem Raises.pure (a : α) : Raises Q (Pure.pure a : Eff σ ε α) := fun _ _ _ h => nomatch congrArg Prod.fst h

theorem Raises.read (f : σ → α) : Raises Q (Eff.read f : Eff σ ε α) := fun _ _ _ h => nomatch congrArg Prod.fst h

theorem Raises.modify (f : σ → σ) : Raises Q (Eff.modify f : Eff σ ε Unit) := fun _ _ _ h => nomatch congrArg Prod.fst h

theorem Raises.raise {e : ε} (h : Q e) : Raises Q (Eff.raise e : Eff σ ε α) := by
  intro s e' s' hrun
  cases hrun
  exact h

theorem Raises.ofExcept {x : Except ε α} (h : ∀ e, x = .error e → Q e) : Raises Q (Eff.ofExcept x : Eff σ ε α) := by
  cases x with
  | ok a => exact Raises.pure a
  | error e => exact Raises.raise (h e rfl)

theorem Raises.getOr {o : Option α} {e : ε} (h : Q e) : Raises Q (Eff.getOr o e : Eff σ ε α) := by
  cases o with
  | some a => exact Raises.pure a
  | none => exact Raises.raise h

theorem Raises.raiseIf {c : Bool} {e : ε} (h : Q e) : Raises Q (Eff.raiseIf c e : Eff σ ε Unit) := by
  cases c with
  | true => exact Raises.raise h
  | false => exact Raises.pure ()

theorem Raises.bind {m : Eff σ ε α} {k : α → Eff σ ε β} (hm : Raises Q m) (hk : ∀ a, Raises Q (k a)) :
    Raises Q (m >>= k) := by
  intro s e s'' h
  rcases bind_error h with h | ⟨a, s', _, h⟩
  · exact hm s e s'' h
  · exact hk a s' e s'' h

/-- The handler decides. -/
theorem Raises.attempt {m : Eff σ ε α} {h : ε → Eff σ ε α} (hh : ∀ s e s', m s = (.error e, s') → Raises Q (h e)) :
    Raises Q (m.attempt h) := by
  intro s e s'' hrun
  rcases hm : m s with ⟨e' | a, s'⟩
  · rw [attempt_error hm] at hrun
    exact hh s e' s' hm s' e s'' hrun
  · rw [attempt_ok hm] at hrun
    cases hrun

theorem Raises.ite {c : Prop} [Decidable c] {m n : Eff σ ε α} (hm : Raises Q m) (hn : Raises Q n) :
    Raises Q (if c then m else n) := by
  split
  · exact hm
  · exact hn

theorem Raises.when {c : Bool} {m : Eff σ ε Unit} (hm : c = true → Raises Q m) : Raises Q (Eff.when c m) := by
  cases c with
  | true => exact hm rfl
  | false => exact Raises.pure ()

theorem Raises.elim {o : Option α} {m : Eff σ ε β} {f : α → Eff σ ε β} (hm : Raises Q m)
    (hf : ∀ a, o = some a → Raises Q (f a)) : Raises Q (o.elim m f) := by
  cases o with
  | none => exact hm
  | some a => exact hf a rfl

theorem Raises.zoom {get : τ → σ} {set : σ → τ → τ} {m : Eff σ ε α} (hm : Raises Q m) : Raises Q (m.zoom get set) := by
  intro t e t' h
  have hresult : (m (get t)).1 = .error e := congrArg Prod.fst h
  exact hm (get t) e (m (get t)).2 (Prod.ext hresult rfl)

/-! ## What a computation returns -/

theorem returns_ofExcept (x : Except ε α) : (Eff.ofExcept x : Eff σ ε α).Returns fun a => x = .ok a := by
  intro s a s' h
  cases x with
  | error e => cases h
  | ok b =>
      cases h
      rfl

theorem returns_getOr (o : Option α) (e : ε) : (Eff.getOr o e : Eff σ ε α).Returns fun a => o = some a :=
  fun _ _ _ h => (getOr_ok h).1

/-! ## Loops that collect results -/

/-- A loop returns exactly when each of its elements is one for which the body returns. -/
theorem mapM_returns_iff {f : α → Eff σ ε β} {I : σ → Prop} {good : α → Prop} {R : α → β → Prop} {xs : List α}
    (hgood : ∀ x ∈ xs, ∀ s, I s → good x → ∃ y s', f x s = (.ok y, s') ∧ I s' ∧ R x y)
    (hbad : ∀ x ∈ xs, ∀ s, I s → ¬ good x → ∃ e s', f x s = (.error e, s')) {s : σ} (hs : I s) :
    (∃ ys s', xs.mapM f s = (.ok ys, s') ∧ List.Forall₂ R xs ys) ↔ ∀ x ∈ xs, good x := by
  induction xs generalizing s with
  | nil => exact iff_of_true ⟨[], s, rfl, .nil⟩ fun _ hx => absurd hx List.not_mem_nil
  | cons x xs ih =>
      have ih := fun s => @ih (fun y hy => hgood y (List.mem_cons_of_mem x hy)) (fun y hy => hbad y (List.mem_cons_of_mem x hy)) s
      rw [List.mapM_cons, List.forall_mem_cons]
      by_cases hx : good x
      · obtain ⟨y, s₁, hrun, hs₁, hy⟩ := hgood x List.mem_cons_self s hs hx
        rw [bind_run_ok hrun]
        constructor
        · rintro ⟨ys, s', h, hall⟩
          obtain ⟨ys', s₂, hrest, hlast⟩ := bind_ok h
          cases hlast
          cases hall with
          | cons _ hall => exact ⟨hx, (ih s₁ hs₁).mp ⟨ys', s', hrest, hall⟩⟩
        · rintro ⟨_, hxs⟩
          obtain ⟨ys, s₂, hrest, hall⟩ := (ih s₁ hs₁).mpr hxs
          exact ⟨y :: ys, s₂, by rw [bind_run_ok hrest]; rfl, .cons hy hall⟩
      · obtain ⟨e, s₁, hrun⟩ := hbad x List.mem_cons_self s hs hx
        rw [bind_run_error hrun]
        exact iff_of_false (by rintro ⟨_, _, h, _⟩; cases h) fun h => hx h.1

/-! ## Logs -/

variable {ι : Type}

/-- Nothing is written down. -/
def silent (m : Eff σ ε α) : Eff (σ × List ι) ε α := m.zoom Prod.fst fun s t => (s, t.2)

/-- Write down an entry. -/
def log (i : ι) : Eff (σ × List ι) ε Unit := modify fun t => (t.1, t.2 ++ [i])

/-- Without its log, `n` is `m`. -/
def Erases (n : Eff (σ × List ι) ε α) (m : Eff σ ε α) : Prop := ∀ t, ((n t).1, (n t).2.1) = m t.1

theorem erases_silent (m : Eff σ ε α) : Erases (silent m : Eff (σ × List ι) ε α) m := fun _ => rfl

theorem Erases.run {n : Eff (σ × List ι) ε α} {m : Eff σ ε α} (h : Erases n m) {t : σ × List ι} {r : Except ε α} {s : σ}
    (hm : m t.1 = (r, s)) : ∃ l, n t = (r, s, l) := by
  have ht := (h t).trans hm
  obtain ⟨hr, hs⟩ := Prod.mk.inj ht
  exact ⟨(n t).2.2, Prod.ext hr (Prod.ext hs rfl)⟩

theorem Erases.bind {n : Eff (σ × List ι) ε α} {m : Eff σ ε α} {k : α → Eff (σ × List ι) ε β} {k' : α → Eff σ ε β}
    (h : Erases n m) (hk : ∀ a, Erases (k a) (k' a)) : Erases (n >>= k) (m >>= k') := by
  intro t
  rcases hm : m t.1 with ⟨e | a, s⟩
  · obtain ⟨l, hn⟩ := h.run hm
    rw [bind_run_error hn, bind_run_error hm]
  · obtain ⟨l, hn⟩ := h.run hm
    rw [bind_run_ok hn, bind_run_ok hm]
    exact hk a (s, l)

/-- An entry before a computation. -/
theorem Erases.logged {n : Eff (σ × List ι) ε α} {m : Eff σ ε α} (i : ι) (h : Erases n m) :
    Erases (log i >>= fun _ => n) m := fun t => h (t.1, t.2 ++ [i])

theorem erases_pure (a : α) : Erases (Pure.pure a : Eff (σ × List ι) ε α) (Pure.pure a) := fun _ => rfl

/-- An entry when the computation has returned. -/
theorem Erases.log_returned {n : Eff (σ × List ι) ε α} {m : Eff σ ε α} (h : Erases n m) (i : ι) :
    Erases (n >>= fun a => log i >>= fun _ => Pure.pure a) m := by
  have hlogged := h.bind fun a => Erases.logged i (erases_pure a)
  rwa [bind_pure] at hlogged

theorem Erases.when {c : Bool} {n : Eff (σ × List ι) ε Unit} {m : Eff σ ε Unit} (h : Erases n m) :
    Erases (Eff.when c n) (Eff.when c m) := by
  cases c with
  | true => exact h
  | false => exact fun _ => rfl

theorem Erases.elim {o : Option α} {n : Eff (σ × List ι) ε β} {m : Eff σ ε β} {k : α → Eff (σ × List ι) ε β}
    {k' : α → Eff σ ε β} (h : Erases n m) (hk : ∀ a, Erases (k a) (k' a)) : Erases (o.elim n k) (o.elim m k') := by
  cases o with
  | none => exact h
  | some a => exact hk a

/-- Every entry of the log satisfies `P`. -/
def Entries (P : ι → Prop) (t : σ × List ι) : Prop := ∀ i ∈ t.2, P i

theorem entries_silent (P : ι → Prop) (m : Eff σ ε α) : (silent m).Keeps (Entries P) := fun _ h => h

theorem entries_log {P : ι → Prop} {i : ι} (h : P i) : (log i : Eff (σ × List ι) ε Unit).Keeps (Entries P) := by
  intro t ht j hj
  rcases List.mem_append.mp hj with hj | hj
  · exact ht j hj
  · exact List.mem_singleton.mp hj ▸ h

/-- What a computation can return, it can return without a log. -/
theorem Returns.silent {Q : α → Prop} {m : Eff σ ε α} (h : m.Returns Q) : (silent m : Eff (σ × List ι) ε α).Returns Q := by
  intro t a t' hrun
  have hresult : (m t.1).1 = .ok a := congrArg Prod.fst hrun
  exact h t.1 a (m t.1).2 (Prod.ext hresult rfl)

theorem silent_run (m : Eff σ ε α) (s : σ) (l : List ι) : silent m (s, l) = ((m s).1, (m s).2, l) := rfl

theorem silent_ok {m : Eff σ ε α} {s s' : σ} {a : α} (h : m s = (.ok a, s')) (l : List ι) :
    silent m (s, l) = (.ok a, s', l) := by
  rw [silent_run, h]

end Eff

/-! ## Calls on a file tree -/

namespace Disk

variable {α ε : Type} [RaisesOS ε] {Q : ε → Prop}

theorem raises_call (hos : ∀ e, Q (RaisesOS.os e)) (ps : List Loc) (f : FileTree α → Except OSError (FileTree α)) :
    (call ps f : Eff (Disk α) ε Unit).Raises Q := by
  intro d e d' h
  unfold call at h
  split at h
  · cases h
  · cases h
    exact hos _

theorem raises_mkdirExistOk (hos : ∀ e, Q (RaisesOS.os e)) (p : Loc) :
    (mkdirExistOk p : Eff (Disk α) ε Unit).Raises Q := by
  refine (Eff.Raises.read _).bind fun r => ?_
  cases r with
  | ok _ => exact raises_call hos _ _
  | error e => exact (Eff.Raises.read _).bind fun _ => (Eff.Raises.pure ()).ite (Eff.Raises.raise (hos e))

theorem raises_mkdirs (hos : ∀ e, Q (RaisesOS.os e)) (p : Loc) : (mkdirs p : Eff (Disk α) ε Unit).Raises Q := by
  unfold mkdirs
  induction p.reverse with
  | nil => exact raises_mkdirExistOk hos []
  | cons c up ih =>
      have hself := raises_mkdirExistOk (α := α) hos (c :: up).reverse
      refine (Eff.Raises.read _).bind fun r => ?_
      split
      · exact ih.bind fun _ => hself
      · exact hself

end Disk

end Lib
