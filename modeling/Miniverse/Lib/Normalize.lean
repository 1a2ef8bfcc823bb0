import Mathlib.Logic.Relation
import Miniverse.Lib.Posix

/-!
# Normal forms of paths

The pieces of an absolute path are simplified until nothing can be simplified. The result does not depend on the order, and is
what following the components leads to.
-/

namespace Lib

/-- The pieces of a text between slashes. -/
def pieces (s : List Char) : List String := (s.splitOn '/').map String.ofList

/-- A piece that stands for itself. -/
def IsPlain (c : String) : Prop := c ≠ "" ∧ c ≠ "." ∧ c ≠ ".."

/-- One simplification of the pieces of an absolute path: an empty piece and `.` are dropped, `..` cancels the name before it, and
at the root it is absorbed. -/
inductive Simplifies : List String → List String → Prop where
  | empty (p q : List String) : Simplifies (p ++ "" :: q) (p ++ q)
  | dot (p q : List String) : Simplifies (p ++ "." :: q) (p ++ q)
  | up (p q : List String) {c : String} (hc : IsPlain c) : Simplifies (p ++ c :: ".." :: q) (p ++ q)
  | top (q : List String) : Simplifies (".." :: q) q

/-- The pieces are simplified to `t`, and `t` cannot be simplified. -/
structure NormalForm (cs t : List String) : Prop where
  reached : Relation.ReflTransGen Simplifies cs t
  irreducible : ∀ u, ¬ Simplifies t u

variable {cs ds t base : List String}

/-- The first piece that is not plain can be simplified. -/
theorem isPlain_of_irreducible (hbase : ∀ c ∈ base, IsPlain c) (h : ∀ u, ¬ Simplifies (base ++ t) u) : ∀ c ∈ t, IsPlain c := by
  induction t generalizing base with
  | nil => exact List.forall_mem_nil _
  | cons d t ih =>
      have hd : IsPlain d := by
        refine ⟨?_, ?_, ?_⟩
        · rintro rfl
          exact h _ (Simplifies.empty base t)
        · rintro rfl
          exact h _ (Simplifies.dot base t)
        · rintro rfl
          rcases Loc.eq_nil_or_concat base with rfl | ⟨p, c, rfl⟩
          · exact h _ (Simplifies.top t)
          · have hup := Simplifies.up p t (hbase c (by simp))
            rw [List.append_assoc] at h
            exact h _ hup
      have hrest : ∀ c ∈ t, IsPlain c := by
        refine @ih (base ++ [d]) (fun c hc => ?_) (by simpa using h)
        rcases List.mem_append.mp hc with hc | hc
        · exact hbase c hc
        · exact List.mem_singleton.mp hc ▸ hd
      exact List.forall_mem_cons.mpr ⟨hd, hrest⟩

theorem irreducible_of_isPlain (h : ∀ c ∈ t, IsPlain c) (u : List String) : ¬ Simplifies t u := by
  intro hs
  cases hs with
  | empty p q => exact (h "" (by simp)).1 rfl
  | dot p q => exact (h "." (by simp)).2.1 rfl
  | up p q hc => exact (h ".." (by simp)).2.2 rfl
  | top q => exact (h ".." (by simp)).2.2 rfl

/-- The pieces that are components. -/
def realPieces (cs : List String) : List String := cs.filter fun c => decide (c ≠ "" ∧ c ≠ ".")

theorem realPieces_append : realPieces (cs ++ ds) = realPieces cs ++ realPieces ds := List.filter_append _ _

theorem realPieces_of_isPlain (h : ∀ c ∈ cs, IsPlain c) : realPieces cs = cs :=
  List.filter_eq_self.mpr fun c hc => decide_eq_true ⟨(h c hc).1, (h c hc).2.1⟩

/-- A simplification does not change where the components lead. -/
theorem resolveFrom_simplifies (h : Simplifies cs ds) : resolveFrom [] (realPieces cs) = resolveFrom [] (realPieces ds) := by
  cases h with
  | empty p q => simp [realPieces]
  | dot p q => simp [realPieces]
  | up p q hc =>
      rw [realPieces_append, realPieces_append, resolveFrom_append, resolveFrom_append]
      simp [realPieces, hc.1, hc.2.1, resolveStep, hc.2.2]
  | top q => simp [realPieces, resolveStep]

theorem reaches_resolveFrom (hbase : ∀ c ∈ base, IsPlain c) :
    Relation.ReflTransGen Simplifies (base ++ cs) (resolveFrom base (realPieces cs)) := by
  induction cs generalizing base with
  | nil => simp [realPieces, Relation.ReflTransGen.refl]
  | cons c cs ih =>
      by_cases hempty : c = ""
      · subst hempty
        exact (ih hbase).head (Simplifies.empty base cs)
      by_cases hdot : c = "."
      · subst hdot
        exact (ih hbase).head (Simplifies.dot base cs)
      have hreal : realPieces (c :: cs) = c :: realPieces cs := by simp [realPieces, hempty, hdot]
      rw [hreal, resolveFrom_cons]
      by_cases hup : c = ".."
      · subst hup
        rcases Loc.eq_nil_or_concat base with rfl | ⟨p, d, rfl⟩
        · exact (ih hbase).head (Simplifies.top cs)
        · have hp : ∀ c ∈ p, IsPlain c := fun c hc => hbase c (List.mem_append_left _ hc)
          have hstep := Simplifies.up p cs (hbase d (by simp))
          rw [List.append_assoc, resolveStep, if_pos rfl, List.dropLast_concat]
          exact (ih hp).head hstep
      · have hnext : ∀ d ∈ base ++ [c], IsPlain d := by
          intro d hd
          rcases List.mem_append.mp hd with hd | hd
          · exact hbase d hd
          · exact List.mem_singleton.mp hd ▸ ⟨hempty, hdot, hup⟩
        have hreaches := ih hnext
        rw [List.append_assoc, List.singleton_append] at hreaches
        rwa [resolveStep, if_neg hup]

/-- There is one normal form, and following the components leads to it. -/
theorem normalForm_iff : NormalForm cs t ↔ t = resolveFrom [] (realPieces cs) := by
  constructor
  · rintro ⟨hreached, hirreducible⟩
    have hsame : resolveFrom [] (realPieces cs) = resolveFrom [] (realPieces t) := by
      induction hreached using Relation.ReflTransGen.head_induction_on with
      | refl => rfl
      | head hstep _ ih => exact (resolveFrom_simplifies hstep).trans ih
    have hplain : ∀ c ∈ t, IsPlain c := @isPlain_of_irreducible t [] (List.forall_mem_nil _) hirreducible
    rw [hsame, realPieces_of_isPlain hplain, resolveFrom_of_forall_ne fun c hc => (hplain c hc).2.2, List.nil_append]
  · rintro rfl
    refine ⟨@reaches_resolveFrom cs [] (List.forall_mem_nil _), irreducible_of_isPlain ?_⟩
    refine resolveFrom_forall (List.forall_mem_nil _) fun c hc hup => ?_
    have hreal : c ≠ "" ∧ c ≠ "." := by simpa using (List.mem_filter.mp hc).2
    exact ⟨hreal.1, hreal.2, hup⟩

/-- The normal form of the path `p/s` below an absolute path. -/
theorem normalForm_join_iff {p t : Loc} (hp : ∀ c ∈ p, IsComponent c) (s : String) :
    NormalForm (pieces (p.str ++ "/" ++ s).toList) t ↔ t = resolveFrom [] (p ++ components s.toList) := by
  have hpieces : realPieces (pieces (p.str ++ "/" ++ s).toList) = components (p.str ++ "/" ++ s).toList := rfl
  have htext : (p.str ++ "/" ++ s).toList = '/' :: (['/'].intercalate (p.map String.toList) ++ '/' :: s.toList) := by
    simp [Loc.str]
  rw [normalForm_iff, hpieces, htext, components_slash, components_sep, components_intercalate hp]

end Lib
