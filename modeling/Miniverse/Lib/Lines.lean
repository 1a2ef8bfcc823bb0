import Mathlib.Data.List.TakeWhile
import Mathlib.Tactic.Common

/-!
# Texts of lines and fields

A text in which every line is ended by a newline, and lines whose fields are separated by single spaces.
-/

namespace Lib

/-! ## Lines -/

/-- No piece of a split holds the separator. -/
theorem not_mem_of_mem_splitOn {α : Type} [BEq α] [LawfulBEq α] {sep : α} {s l : List α} (h : l ∈ s.splitOn sep) : sep ∉ l := by
  induction s generalizing l with
  | nil =>
      rw [List.splitOn_nil, List.mem_singleton] at h
      simp [h]
  | cons x s ih =>
      rw [List.splitOn_cons_eq_if_modifyHead] at h
      split at h
      · rcases List.mem_cons.mp h with rfl | h
        · exact List.not_mem_nil
        · exact ih h
      · rename_i hx
        obtain ⟨a, as, hs⟩ := List.exists_cons_of_ne_nil (List.splitOn_ne_nil sep s)
        rw [hs, List.modifyHead_cons] at h
        rcases List.mem_cons.mp h with rfl | h
        · have hhead := ih (hs ▸ List.mem_cons_self)
          rw [List.mem_cons, not_or]
          exact ⟨fun hsep => hx (by rw [hsep, beq_self_eq_true]), hhead⟩
        · exact ih (hs ▸ List.mem_cons_of_mem _ h)

/-- What is in a piece is in the text. -/
theorem mem_of_mem_splitOn {α : Type} [BEq α] {sep x : α} {s l : List α} (h : l ∈ s.splitOn sep) (hx : x ∈ l) : x ∈ s := by
  induction s generalizing l with
  | nil =>
      rw [List.splitOn_nil, List.mem_singleton] at h
      exact h ▸ hx
  | cons y s ih =>
      rw [List.splitOn_cons_eq_if_modifyHead] at h
      split at h
      · rcases List.mem_cons.mp h with rfl | h
        · exact absurd hx List.not_mem_nil
        · exact List.mem_cons_of_mem _ (ih h hx)
      · obtain ⟨a, as, hs⟩ := List.exists_cons_of_ne_nil (List.splitOn_ne_nil sep s)
        rw [hs, List.modifyHead_cons] at h
        rcases List.mem_cons.mp h with rfl | h
        · rcases List.mem_cons.mp hx with rfl | hx
          · exact List.mem_cons_self
          · exact List.mem_cons_of_mem _ (ih (hs ▸ List.mem_cons_self) hx)
        · exact List.mem_cons_of_mem _ (ih (hs ▸ List.mem_cons_of_mem _ h) hx)

/-- The lines of a text, when a newline ends each of them. -/
def readLines (cs : List Char) : Option (List (List Char)) :=
  if (cs.splitOn '\n').getLast? = some [] then some (cs.splitOn '\n').dropLast else none

theorem not_mem_of_readLines {cs : List Char} {ls : List (List Char)} (h : readLines cs = some ls) : ∀ l ∈ ls, '\n' ∉ l := by
  intro l hl
  unfold readLines at h
  split at h
  · cases h
    exact not_mem_of_mem_splitOn ((List.dropLast_sublist _).subset hl)
  · cases h

/-- What does not hold the separator goes to the first piece. -/
theorem splitOn_append_left {α : Type} [BEq α] [LawfulBEq α] {sep : α} {s : List α} (hs : sep ∉ s) (t : List α) :
    (s ++ t).splitOn sep = (t.splitOn sep).modifyHead (s ++ ·) := by
  induction s with
  | nil =>
      cases h : t.splitOn sep with
      | nil => exact h
      | cons a as => exact h
  | cons x s ih =>
      obtain ⟨hx, hs⟩ := not_or.mp fun h => hs (List.mem_cons.mpr h)
      rw [List.cons_append, List.splitOn_cons_eq_if_modifyHead, if_neg (by simpa using Ne.symm hx), ih hs]
      cases t.splitOn sep with
      | nil => rfl
      | cons a as => rfl

/-! ## Pieces joined with the separator -/

section Joined

variable {α : Type} [BEq α] [LawfulBEq α] {sep : α} {ls : List (List α)}

/-- The pieces of a joined text are those of its parts. -/
theorem splitOn_joined (hls : ls ≠ []) : ([sep].intercalate ls).splitOn sep = ls.flatMap (·.splitOn sep) := by
  induction ls with
  | nil => exact absurd rfl hls
  | cons l ls ih =>
      cases ls with
      | nil => simp [List.intercalate]
      | cons l' ls =>
          have hcons : [sep].intercalate (l :: l' :: ls) = l ++ sep :: [sep].intercalate (l' :: ls) := by
            simp [List.intercalate]
          rw [hcons, List.splitOn_append_cons_self, ih (List.cons_ne_nil _ _)]
          rfl

omit [LawfulBEq α] in
theorem length_splitOn_pos (l : List α) : 1 ≤ (l.splitOn sep).length :=
  List.length_pos_iff.mpr (List.splitOn_ne_nil sep l)

/-- A part that is one piece does not hold the separator. -/
theorem not_mem_of_length_splitOn {l : List α} (h : (l.splitOn sep).length = 1) : sep ∉ l := by
  obtain ⟨piece, hpiece⟩ := List.length_eq_one_iff.mp h
  have hl : [sep].intercalate (l.splitOn sep) = l := List.intercalate_splitOn sep
  have hself : piece = l := by simpa [hpiece, List.intercalate] using hl
  exact not_mem_of_mem_splitOn (hself ▸ hpiece ▸ List.mem_singleton_self piece)

omit [LawfulBEq α] in
theorem length_le_flatMap_splitOn (ls : List (List α)) : ls.length ≤ (ls.flatMap (·.splitOn sep)).length := by
  induction ls with
  | nil => exact Nat.le_refl _
  | cons l ls ih =>
      have hl := @length_splitOn_pos α _ sep l
      rw [List.flatMap_cons, List.length_append, List.length_cons]
      omega

/-- As many pieces as parts: no part holds the separator. -/
theorem forall_not_mem_of_length (h : (ls.flatMap (·.splitOn sep)).length = ls.length) : ∀ l ∈ ls, sep ∉ l := by
  induction ls with
  | nil => exact List.forall_mem_nil _
  | cons l ls ih =>
      have hl := @length_splitOn_pos α _ sep l
      have hls := @length_le_flatMap_splitOn α _ sep ls
      rw [List.flatMap_cons, List.length_append, List.length_cons] at h
      exact List.forall_mem_cons.mpr ⟨not_mem_of_length_splitOn (by omega), ih (by omega)⟩

end Joined

/-- Every line of the text is read, however many lines the pieces have. -/
theorem readLines_intercalate {ls : List (List Char)} (hls : ls ≠ []) :
    readLines (['\n'].intercalate ls ++ ['\n']) = some (ls.flatMap (·.splitOn '\n')) := by
  have hended : (['\n'].intercalate ls ++ ['\n']).splitOn '\n' = ls.flatMap (·.splitOn '\n') ++ [[]] := by
    rw [List.splitOn_append_cons_self, splitOn_joined hls, List.splitOn_nil]
  rw [readLines, hended, if_pos List.getLast?_concat, List.dropLast_concat]

/-- Lines without a newline are read back. -/
theorem readLines_ended {ls : List (List Char)} (hls : ls ≠ []) (h : ∀ l ∈ ls, '\n' ∉ l) :
    readLines (['\n'].intercalate ls ++ ['\n']) = some ls := by
  have hsplit : (['\n'].intercalate ls ++ ['\n']).splitOn '\n' = ls ++ [[]] := by
    rw [List.splitOn_append_cons_self, List.splitOn_intercalate '\n' h hls, List.splitOn_nil]
  rw [readLines, hsplit, if_pos List.getLast?_concat, List.dropLast_concat]

/-- A newline alone is one empty line. -/
theorem readLines_newline : readLines ['\n'] = some [[]] := by decide

/-! ## Readers of lines -/

section Readers

variable {β γ : Type} {read : β → Option γ} {ls : List β}

/-- What is read are the readings of the lines. -/
theorem mem_mapM {es : List γ} (h : ls.mapM read = some es) :
    (∀ l ∈ ls, ∃ e ∈ es, read l = some e) ∧ ∀ e ∈ es, ∃ l ∈ ls, read l = some e := by
  induction ls generalizing es with
  | nil =>
      cases h
      exact ⟨fun _ hl => absurd hl List.not_mem_nil, fun _ he => absurd he List.not_mem_nil⟩
  | cons l ls ih =>
      simp only [List.mapM_cons, Option.bind_eq_bind, Option.pure_def, Option.bind_eq_some_iff, Option.some.injEq] at h
      obtain ⟨e, he, es, hes, rfl⟩ := h
      obtain ⟨hlines, hentries⟩ := ih hes
      refine ⟨List.forall_mem_cons.mpr ⟨⟨e, List.mem_cons_self, he⟩, fun l' hl' => ?_⟩,
        List.forall_mem_cons.mpr ⟨⟨l, List.mem_cons_self, he⟩, fun e' he' => ?_⟩⟩
      · obtain ⟨e', he', hread⟩ := hlines l' hl'
        exact ⟨e', List.mem_cons_of_mem e he', hread⟩
      · obtain ⟨l', hl', hread⟩ := hentries e' he'
        exact ⟨l', List.mem_cons_of_mem l hl', hread⟩

theorem mapM_succeeds (h : ∀ l ∈ ls, ∃ e, read l = some e) : ∃ es, ls.mapM read = some es := by
  induction ls with
  | nil => exact ⟨[], rfl⟩
  | cons l ls ih =>
      obtain ⟨⟨e, he⟩, hrest⟩ := List.forall_mem_cons.mp h
      obtain ⟨es, hes⟩ := ih hrest
      exact ⟨e :: es, by rw [List.mapM_cons, he, hes]; rfl⟩

/-- A reader of lines reads all of them or none. -/
theorem forall_mapM_iff {P : γ → Prop} : (∀ es, ls.mapM read = some es → ∀ e ∈ es, P e) ↔
    ((∀ l ∈ ls, ∃ e, read l = some e) → ∀ l ∈ ls, ∀ e, read l = some e → P e) := by
  constructor
  · intro h hall l hl e he
    obtain ⟨es, hes⟩ := mapM_succeeds hall
    obtain ⟨e', he', hread⟩ := (mem_mapM hes).1 l hl
    rw [he] at hread
    exact Option.some.inj hread ▸ h es hes e' he'
  · intro h es hes e he
    obtain ⟨hlines, hentries⟩ := mem_mapM hes
    obtain ⟨l, hl, hread⟩ := hentries e he
    refine h (fun l hl => ?_) l hl e hread
    obtain ⟨e, _, hread⟩ := hlines l hl
    exact ⟨e, hread⟩

end Readers

/-! ## Fields -/

/-- The text before the first space, and the text after it. -/
def cutField : List Char → Option (List Char × List Char)
  | [] => none
  | c :: cs => if c = ' ' then some ([], cs) else (cutField cs).map fun f => (c :: f.1, f.2)

theorem cutField_append {field : List Char} (h : ' ' ∉ field) (rest : List Char) :
    cutField (field ++ ' ' :: rest) = some (field, rest) := by
  induction field with
  | nil => exact if_pos rfl
  | cons c field ih =>
      obtain ⟨hc, hfield⟩ : ' ' ≠ c ∧ ' ' ∉ field := by simpa using h
      rw [List.cons_append, cutField, if_neg (Ne.symm hc), ih hfield, Option.map_some]

/-- What is left after a field is a part of the text. -/
theorem subset_of_cutField {cs field rest : List Char} (h : cutField cs = some (field, rest)) : rest ⊆ cs := by
  induction cs generalizing field with
  | nil => cases h
  | cons c cs ih =>
      unfold cutField at h
      split at h
      · cases h
        exact List.subset_cons_self c rest
      · obtain ⟨f, hf, heq⟩ := Option.map_eq_some_iff.mp h
        cases heq
        exact fun x hx => List.mem_cons_of_mem c (ih hf hx)

/-- A number in decimal digits. -/
def readNat (cs : List Char) : Option Nat :=
  if cs ≠ [] ∧ cs.all Char.isDigit = true then some (Nat.ofDigitChars 10 cs 0) else none

theorem isDigit_of_mem_repr {n : Nat} {c : Char} (h : c ∈ n.repr.toList) : c.isDigit = true := by
  rw [Nat.toList_repr] at h
  exact Nat.isDigit_of_mem_toDigits (by decide) (by decide) h

theorem readNat_repr (n : Nat) : readNat n.repr.toList = some n := by
  have hdigits : n.repr.toList.all Char.isDigit = true := List.all_eq_true.mpr fun c => isDigit_of_mem_repr
  have hne : n.repr.toList ≠ [] := by
    rw [Nat.toList_repr]
    exact Nat.toDigits_ne_nil
  rw [readNat, if_pos ⟨hne, hdigits⟩, Nat.toList_repr, Nat.ofDigitChars_ten_toDigits]

end Lib
