import Mathlib.Data.List.Basic
import Mathlib.Data.List.Count

/-!
# JSON texts of strings and arrays

The texts that are read as a string, and as an array of values whose texts are known. A text without a backslash has its
strings between its quotation marks.
-/

namespace Lib

namespace JsonText

variable {α : Type}

/-! ## The grammar -/

def isSpace (c : Char) : Bool := decide (c ∈ [' ', '\t', '\n', '\r'])

/-- What may follow a backslash, and the character that it stands for. -/
def escapes : List (Char × Char) :=
  [('"', '"'), ('\\', '\\'), ('/', '/'), ('b', '\x08'), ('f', '\x0c'), ('n', '\n'), ('r', '\r'), ('t', '\t')]

def hexValue (c : Char) : Option Nat :=
  if '0' ≤ c ∧ c ≤ '9' then some (c.toNat - 48)
  else if 'a' ≤ c ∧ c ≤ 'f' then some (c.toNat - 87)
  else if 'A' ≤ c ∧ c ≤ 'F' then some (c.toNat - 55)
  else none

/-- The number that four hexadecimal digits stand for. -/
def codeUnit : List Char → Option Nat
  | [a, b, c, d] => do
      return (((← hexValue a) * 16 + (← hexValue b)) * 16 + (← hexValue c)) * 16 + (← hexValue d)
  | _ => none

/-- The characters of a string, and a text for them. -/
inductive Chars : List Char → List Char → Prop
  | nil : Chars [] []
  | plain {c : Char} {s t : List Char} : 32 ≤ c.toNat → c ≠ '"' → c ≠ '\\' → Chars s t → Chars (c :: s) (c :: t)
  | escape {e c : Char} {s t : List Char} : (e, c) ∈ escapes → Chars s t → Chars (c :: s) ('\\' :: e :: t)
  | unit {c : Char} {ds s t : List Char} : codeUnit ds = some c.toNat → Chars s t → Chars (c :: s) ('\\' :: 'u' :: (ds ++ t))
  | pair {c : Char} {ds es s t : List Char} {high low : Nat} : codeUnit ds = some (0xD800 + high) →
      codeUnit es = some (0xDC00 + low) → high < 0x400 → low < 0x400 → c.toNat = 0x10000 + high * 0x400 + low → Chars s t →
      Chars (c :: s) ('\\' :: 'u' :: (ds ++ '\\' :: 'u' :: (es ++ t)))

/-- The text is read as the string. -/
def StringText (s t : List Char) : Prop := ∃ u, Chars s u ∧ t = '"' :: (u ++ ['"'])

/-- The text is read as the value, with white space around it. -/
def Padded (E : α → List Char → Prop) (a : α) (t : List Char) : Prop :=
  ∃ l u r, (∀ c ∈ l, isSpace c = true) ∧ E a u ∧ (∀ c ∈ r, isSpace c = true) ∧ t = l ++ (u ++ r)

inductive Elements (E : α → List Char → Prop) : List α → List Char → Prop
  | one {a : α} {t : List Char} : Padded E a t → Elements E [a] t
  | cons {a : α} {as : List α} {t u : List Char} : Padded E a t → Elements E as u → Elements E (a :: as) (t ++ ',' :: u)

/-- The text is read as the array. -/
def ArrayText (E : α → List Char → Prop) (as : List α) (t : List Char) : Prop :=
  ∃ u, t = '[' :: (u ++ [']']) ∧ (Elements E as u ∨ as = [] ∧ ∀ c ∈ u, isSpace c = true)

/-! ## Between the quotation marks -/

/-- Every quotation mark of the text opens or closes one of the parts. -/
inductive Quoted : List (List Char) → List Char → Prop
  | nil {g : List Char} : '"' ∉ g → Quoted [] g
  | cons {g s t : List Char} {ss : List (List Char)} : '"' ∉ g → '"' ∉ s → Quoted ss t →
      Quoted (s :: ss) (g ++ '"' :: (s ++ '"' :: t))

theorem Quoted.gap {g t : List Char} {ss : List (List Char)} (hg : '"' ∉ g) (h : Quoted ss t) : Quoted ss (g ++ t) := by
  cases h with
  | nil ht => exact .nil fun hmem => (List.mem_append.mp hmem).elim hg ht
  | @cons g' s t ss hg' hs ht =>
      rw [← List.append_assoc]
      exact .cons (fun hmem => (List.mem_append.mp hmem).elim hg hg') hs ht

theorem Quoted.append {ss us : List (List Char)} {t u : List Char} (h : Quoted ss t) (hu : Quoted us u) :
    Quoted (ss ++ us) (t ++ u) := by
  induction h with
  | nil hg => exact hu.gap hg
  | @cons g s t ss hg hs _ ih =>
      have hassoc : g ++ '"' :: (s ++ '"' :: t) ++ u = g ++ '"' :: (s ++ '"' :: (t ++ u)) := by simp
      rw [hassoc]
      exact .cons hg hs ih

theorem Quoted.single {s : List Char} (hs : '"' ∉ s) : Quoted [s] ('"' :: (s ++ ['"'])) :=
  .cons List.not_mem_nil hs (.nil List.not_mem_nil)

/-- The first mark is at one place. -/
theorem append_mark_inj {q : Char} {s t u v : List Char} (hs : q ∉ s) (ht : q ∉ t) (h : s ++ q :: u = t ++ q :: v) :
    s = t ∧ u = v := by
  induction s generalizing t with
  | nil =>
      cases t with
      | nil => exact ⟨rfl, (List.cons.inj h).2⟩
      | cons c t => exact absurd ((List.cons.inj h).1 ▸ List.mem_cons_self) ht
  | cons c s ih =>
      cases t with
      | nil => exact absurd ((List.cons.inj h).1 ▸ List.mem_cons_self) hs
      | cons d t =>
          obtain ⟨rfl, hrest⟩ := List.cons.inj h
          obtain ⟨rfl, hu⟩ := ih (fun hmem => hs (List.mem_cons_of_mem _ hmem)) (fun hmem => ht (List.mem_cons_of_mem _ hmem)) hrest
          exact ⟨rfl, hu⟩

theorem Quoted.unique {ss us : List (List Char)} {t : List Char} (h : Quoted ss t) (hu : Quoted us t) : ss = us := by
  induction h generalizing us with
  | nil hg =>
      cases hu with
      | nil => rfl
      | cons => exact absurd (List.mem_append_right _ List.mem_cons_self) hg
  | @cons g s t ss hg hs _ ih =>
      generalize hw : g ++ '"' :: (s ++ '"' :: t) = w at hu
      cases hu with
      | nil hg' => exact absurd (hw ▸ List.mem_append_right _ List.mem_cons_self) hg'
      | cons hg' hs' ht' =>
          obtain ⟨_, hrest⟩ := append_mark_inj hg hg' hw
          obtain ⟨rfl, rfl⟩ := append_mark_inj hs hs' hrest
          rw [ih ht']

theorem Quoted.count {ss : List (List Char)} {t : List Char} (h : Quoted ss t) : t.count '"' = 2 * ss.length := by
  induction h with
  | nil hg => exact List.count_eq_zero.mpr hg
  | cons hg hs _ ih =>
      rw [List.count_append, List.count_cons_self, List.count_append, List.count_cons_self, List.count_eq_zero.mpr hg,
        List.count_eq_zero.mpr hs, ih, List.length_cons]
      omega

/-! ## Texts without a backslash -/

/-- The character may stand in a string as it is. -/
def Unescaped (c : Char) : Prop := 32 ≤ c.toNat ∧ c ≠ '"' ∧ c ≠ '\\'

/-- Without a backslash, a text has the strings of the value between its quotation marks. -/
def Reads (E : α → List Char → Prop) (strings : α → List (List Char)) : Prop :=
  ∀ a t, E a t → '\\' ∉ t → Quoted (strings a) t ∧ ∀ s ∈ strings a, ∀ c ∈ s, Unescaped c

theorem Chars.unescaped {s t : List Char} (h : Chars s t) (ht : '\\' ∉ t) : t = s ∧ ∀ c ∈ s, Unescaped c := by
  induction h with
  | nil => exact ⟨rfl, fun c hc => absurd hc List.not_mem_nil⟩
  | @plain c s t hspace hquote hslash _ ih =>
      obtain ⟨rfl, hall⟩ := ih fun hmem => ht (List.mem_cons_of_mem _ hmem)
      exact ⟨rfl, List.forall_mem_cons.mpr ⟨⟨hspace, hquote, hslash⟩, hall⟩⟩
  | escape => exact absurd List.mem_cons_self ht
  | unit => exact absurd List.mem_cons_self ht
  | pair => exact absurd List.mem_cons_self ht

theorem reads_string : Reads StringText fun s => [s] := by
  rintro s t ⟨u, hu, rfl⟩ ht
  obtain ⟨rfl, hall⟩ := hu.unescaped fun hmem => ht (List.mem_cons_of_mem _ (List.mem_append_left _ hmem))
  refine ⟨.single fun hmem => (hall _ hmem).2.1 rfl, fun s hs => ?_⟩
  rw [List.mem_singleton.mp hs]
  exact hall

theorem not_quote_of_spaces {l : List Char} (h : ∀ c ∈ l, isSpace c = true) : '"' ∉ l := fun hmem => by
  have hspace := h _ hmem
  revert hspace
  decide

theorem Reads.padded {E : α → List Char → Prop} {strings : α → List (List Char)} (hE : Reads E strings) :
    Reads (Padded E) strings := by
  rintro a t ⟨l, u, r, hl, hu, hr, rfl⟩ ht
  obtain ⟨hquoted, hall⟩ := hE a u hu fun hmem => ht (List.mem_append_right _ (List.mem_append_left _ hmem))
  have happend := hquoted.append (.nil (not_quote_of_spaces hr))
  rw [List.append_nil] at happend
  exact ⟨happend.gap (not_quote_of_spaces hl), hall⟩

theorem Reads.elements {E : α → List Char → Prop} {strings : α → List (List Char)} (hE : Reads E strings) :
    Reads (Elements E) fun as => as.flatMap strings := by
  intro as t h ht
  induction h with
  | @one a t ha =>
      dsimp only
      rw [List.flatMap_singleton]
      exact hE.padded a t ha ht
  | @cons a as t u ha _ ih =>
      obtain ⟨hquoted, hall⟩ := hE.padded a t ha fun hmem => ht (List.mem_append_left _ hmem)
      obtain ⟨hquoted', hall'⟩ := ih fun hmem => ht (List.mem_append_right _ (List.mem_cons_of_mem _ hmem))
      dsimp only
      rw [List.flatMap_cons]
      refine ⟨hquoted.append (@Quoted.gap [','] _ _ (by decide) hquoted'), fun s hs => ?_⟩
      exact (List.mem_append.mp hs).elim (hall s) (hall' s)

theorem Reads.array {E : α → List Char → Prop} {strings : α → List (List Char)} (hE : Reads E strings) :
    Reads (ArrayText E) fun as => as.flatMap strings := by
  rintro as t ⟨u, rfl, hu⟩ ht
  have hslash : '\\' ∉ u := fun hmem => ht (List.mem_cons_of_mem _ (List.mem_append_left _ hmem))
  have hinner : Quoted (as.flatMap strings) u ∧ ∀ s ∈ as.flatMap strings, ∀ c ∈ s, Unescaped c := by
    rcases hu with hu | ⟨rfl, hu⟩
    · exact hE.elements as u hu hslash
    · exact ⟨.nil (not_quote_of_spaces hu), fun s hs => absurd hs List.not_mem_nil⟩
  have hclosed := hinner.1.append (@Quoted.nil [']'] (by decide))
  rw [List.append_nil] at hclosed
  exact ⟨@Quoted.gap ['['] _ _ (by decide) hclosed, hinner.2⟩

end JsonText

end Lib
