import Mathlib.Algebra.GroupWithZero.Nat
import Miniverse.Lib.JsonText
import Miniverse.Mods.Facets

/-!
# Which dumped values are JSON

What the two replacements leave of Python's text of a value, and what is between its quotation marks.
-/

namespace Backend

open Lib
open Lib.JsonText

variable {α : Type} {printing : Printing} {quote c : Char} {s : String}

/-! ## The replacements -/

theorem replaceQuotes_append (t u : List Char) : replaceQuotes (t ++ u) = replaceQuotes t ++ replaceQuotes u := by
  simp [replaceQuotes]

theorem replaceQuotes_cons {c : Char} (hc : c ≠ '\\') (t : List Char) :
    replaceQuotes (c :: t) = (if c = '\'' then '"' else c) :: replaceQuotes t := by
  by_cases hquote : c = '\''
  · subst hquote
    rfl
  · simp [replaceQuotes, hquote, hc]

theorem replaceQuotes_slash (t : List Char) : replaceQuotes ('\\' :: t) = replaceQuotes t := rfl

theorem not_slash_replaceQuotes (t : List Char) : '\\' ∉ replaceQuotes t := by
  simp [replaceQuotes]

theorem replaceQuotes_flatMap (f : Char → List Char) (t : List Char) :
    replaceQuotes (t.flatMap f) = t.flatMap fun c => replaceQuotes (f c) := by
  induction t with
  | nil => rfl
  | cons c t ih => rw [List.flatMap_cons, replaceQuotes_append, ih, List.flatMap_cons]

/-! ## Characters -/

def isQuote (c : Char) : Bool := decide (c = '\'' ∨ c = '"')

/-- Digits stay as they are. -/
theorem replaceQuotes_hexNumber (width n : Nat) : replaceQuotes (hexNumber width n) = hexNumber width n := by
  induction width generalizing n with
  | zero => rfl
  | succ width ih =>
      have hdigit : ∀ d < 16, replaceQuotes [Nat.digitChar d] = [Nat.digitChar d] := by decide
      rw [hexNumber, replaceQuotes_append, ih, hdigit _ (Nat.mod_lt n (by decide))]

theorem not_quote_hexNumber (width n : Nat) : '"' ∉ hexNumber width n := by
  induction width generalizing n with
  | zero => exact List.not_mem_nil
  | succ width ih =>
      have hdigit : ∀ d < 16, '"' ≠ Nat.digitChar d := by decide
      rw [hexNumber, List.mem_append, List.mem_singleton]
      rintro (h | h)
      · exact ih _ h
      · exact hdigit _ (Nat.mod_lt n (by decide)) h

theorem length_hexNumber (width n : Nat) : (hexNumber width n).length = width := by
  induction width generalizing n with
  | zero => rfl
  | succ width ih => rw [hexNumber, List.length_append, ih, List.length_singleton]

/-- Quotes are printed as they are. -/
theorem printable_of_isQuote (h : isQuote c = true) : printing.isPrintable c = true := by
  rcases of_decide_eq_true h with rfl | rfl
  · exact (printing.ascii '\'' (by decide)).mpr (by decide)
  · exact (printing.ascii '"' (by decide)).mpr (by decide)

theorem not_printable_control (h : c.toNat < 32) : printing.isPrintable c = false :=
  Bool.eq_false_iff.mpr fun hprintable => Nat.not_le_of_lt h ((printing.ascii c (Nat.lt_trans h (by decide))).mp hprintable).1

/-- What is left of a character that is written with a number. -/
theorem replaceQuotes_numbered (x : Char) (hx : x ∈ ['x', 'u', 'U']) (width n : Nat) :
    replaceQuotes ('\\' :: x :: hexNumber width n) = x :: hexNumber width n := by
  have hslash : x ≠ '\\' := by
    rintro rfl
    exact absurd hx (by decide)
  have hquote : x ≠ '\'' := by
    rintro rfl
    exact absurd hx (by decide)
  rw [replaceQuotes_slash, replaceQuotes_cons hslash, if_neg hquote, replaceQuotes_hexNumber]

theorem reprChar_slash (quote : Char) : replaceQuotes (reprChar printing quote '\\') = [] := by
  rw [reprChar, if_pos (Or.inr rfl)]
  rfl

/-- A quote leaves a quotation mark, whether or not it is escaped. -/
theorem reprChar_quote (quote : Char) (hc : isQuote c = true) : replaceQuotes (reprChar printing quote c) = ['"'] := by
  have hleft : replaceQuotes [c] = ['"'] := by
    rcases of_decide_eq_true hc with rfl | rfl <;> rfl
  have hspecial : c ≠ '\\' ∧ c ≠ '\t' ∧ c ≠ '\n' ∧ c ≠ '\r' := by
    rcases of_decide_eq_true hc with rfl | rfl <;> decide
  unfold reprChar
  by_cases hsame : c = quote
  · rw [if_pos (Or.inl hsame), replaceQuotes_slash, hleft]
  · rw [if_neg (not_or.mpr ⟨hsame, hspecial.1⟩), if_neg hspecial.2.1, if_neg hspecial.2.2.1, if_neg hspecial.2.2.2,
      if_pos (printable_of_isQuote hc), hleft]

theorem ne_of_not_isQuote (hc : isQuote c = false) (hquote : isQuote quote = true) : c ≠ quote := by
  rintro rfl
  rw [hquote] at hc
  cases hc

/-- A printable character leaves itself. -/
theorem reprChar_printable (hquote : isQuote quote = true) (hslash : c ≠ '\\') (hc : isQuote c = false)
    (hprintable : printing.isPrintable c = true) : replaceQuotes (reprChar printing quote c) = [c] := by
  have hcontrol (d : Char) (hd : d.toNat < 32) : c ≠ d := by
    rintro rfl
    rw [not_printable_control hd] at hprintable
    cases hprintable
  rw [reprChar, if_neg (not_or.mpr ⟨ne_of_not_isQuote hc hquote, hslash⟩), if_neg (hcontrol '\t' (by decide)),
    if_neg (hcontrol '\n' (by decide)), if_neg (hcontrol '\r' (by decide)), if_pos hprintable, replaceQuotes_cons hslash,
    if_neg (ne_of_not_isQuote hc rfl)]
  rfl

/-- Of any other character there is left a letter, and a number unless it is a control character. -/
theorem reprChar_escaped (hquote : isQuote quote = true) (hslash : c ≠ '\\') (hc : isQuote c = false)
    (hprintable : printing.isPrintable c = false) : '"' ∉ replaceQuotes (reprChar printing quote c) ∧
      (32 ≤ c.toNat → 1 < (replaceQuotes (reprChar printing quote c)).length) := by
  rw [reprChar, if_neg (not_or.mpr ⟨ne_of_not_isQuote hc hquote, hslash⟩)]
  by_cases htab : c = '\t'
  · subst htab
    rw [if_pos rfl]
    exact ⟨by decide, fun h => absurd h (by decide)⟩
  by_cases hline : c = '\n'
  · subst hline
    rw [if_neg (by decide), if_pos rfl]
    exact ⟨by decide, fun h => absurd h (by decide)⟩
  by_cases hreturn : c = '\r'
  · subst hreturn
    rw [if_neg (by decide), if_neg (by decide), if_pos rfl]
    exact ⟨by decide, fun h => absurd h (by decide)⟩
  rw [if_neg htab, if_neg hline, if_neg hreturn, hprintable, if_neg Bool.false_ne_true]
  have hnumbered (x : Char) (hx : x ∈ ['x', 'u', 'U']) (width : Nat) (hwidth : 0 < width) :
      '"' ∉ replaceQuotes ('\\' :: x :: hexNumber width c.toNat) ∧
        (32 ≤ c.toNat → 1 < (replaceQuotes ('\\' :: x :: hexNumber width c.toNat)).length) := by
    rw [replaceQuotes_numbered x hx, List.length_cons, length_hexNumber]
    refine ⟨fun hmem => ?_, fun _ => Nat.succ_lt_succ hwidth⟩
    rcases List.mem_cons.mp hmem with rfl | hmem
    · exact absurd hx (by decide)
    · exact not_quote_hexNumber _ _ hmem
  split
  · exact hnumbered 'x' (by decide) 2 (by decide)
  · split
    · exact hnumbered 'u' (by decide) 4 (by decide)
    · exact hnumbered 'U' (by decide) 8 (by decide)

/-- A character is left, or for one that is not printable a letter and a number, or for a backslash nothing. -/
theorem replaceQuotes_reprChar (printing : Printing) (quote c : Char) (hquote : isQuote quote = true) :
    (c = '\\' ∧ replaceQuotes (reprChar printing quote c) = []) ∨
      (isQuote c = true ∧ replaceQuotes (reprChar printing quote c) = ['"']) ∨
      (c ≠ '\\' ∧ isQuote c = false ∧ printing.isPrintable c = true ∧ replaceQuotes (reprChar printing quote c) = [c]) ∨
      (c ≠ '\\' ∧ isQuote c = false ∧ printing.isPrintable c = false ∧ '"' ∉ replaceQuotes (reprChar printing quote c) ∧
        (32 ≤ c.toNat → 1 < (replaceQuotes (reprChar printing quote c)).length)) := by
  by_cases hslash : c = '\\'
  · subst hslash
    exact Or.inl ⟨rfl, reprChar_slash quote⟩
  · refine Or.inr ?_
    cases hc : isQuote c with
    | true => exact Or.inl ⟨rfl, reprChar_quote quote hc⟩
    | false =>
        cases hprintable : printing.isPrintable c with
        | true => exact Or.inr (Or.inl ⟨hslash, rfl, rfl, reprChar_printable hquote hslash hc hprintable⟩)
        | false => exact Or.inr (Or.inr ⟨hslash, rfl, rfl, reprChar_escaped hquote hslash hc hprintable⟩)

/-! ## Strings -/

/-- Characters that Python prints as they are, and no quotes or backslashes. -/
def Plain (printing : Printing) (s : String) : Prop :=
  ∀ c ∈ s.toList, printing.isPrintable c = true ∧ c ≠ '\'' ∧ c ≠ '"' ∧ c ≠ '\\'

/-- How many quotes are in the string. -/
def quotes (s : String) : Nat := s.toList.countP isQuote

/-- What is left of a string without quotes. -/
def escaped (printing : Printing) (s : String) : List Char :=
  s.toList.flatMap fun c => replaceQuotes (reprChar printing '\'' c)

theorem isQuote_reprQuote (s : String) : isQuote (reprQuote s) = true := by
  unfold reprQuote
  split <;> rfl

theorem replaceQuotes_reprStr (printing : Printing) (s : String) : replaceQuotes (reprStr printing s) =
    '"' :: ((s.toList.flatMap fun c => replaceQuotes (reprChar printing (reprQuote s) c)) ++ ['"']) := by
  have hquote (q : Char) (hq : isQuote q = true) (t : List Char) : replaceQuotes (q :: t) = '"' :: replaceQuotes t := by
    rcases of_decide_eq_true hq with rfl | rfl <;> rfl
  rw [reprStr, hquote _ (isQuote_reprQuote s), replaceQuotes_append, hquote _ (isQuote_reprQuote s), replaceQuotes_flatMap]
  rfl

/-- Each quote leaves one quotation mark, and nothing else does. -/
theorem count_replaceQuotes_reprChar (printing : Printing) (hquote : isQuote quote = true) (c : Char) :
    (replaceQuotes (reprChar printing quote c)).count '"' = if isQuote c = true then 1 else 0 := by
  rcases replaceQuotes_reprChar printing quote c hquote with ⟨rfl, h⟩ | ⟨hc, h⟩ | ⟨_, hc, _, h⟩ | ⟨_, hc, _, hmark, _⟩
  · rw [h]
    rfl
  · rw [h, hc]
    rfl
  · have hne : c ≠ '"' := fun heq => by
      rw [heq] at hc
      cases hc
    rw [h, hc, List.count_singleton, if_neg (by simpa using hne)]
    rfl
  · rw [hc, List.count_eq_zero.mpr hmark]
    rfl

theorem count_flatMap_quotes {f : Char → List Char} (hf : ∀ c, (f c).count '"' = if isQuote c = true then 1 else 0)
    (t : List Char) : (t.flatMap f).count '"' = t.countP isQuote := by
  induction t with
  | nil => rfl
  | cons c t ih => rw [List.flatMap_cons, List.count_append, ih, hf, List.countP_cons, Nat.add_comm]

theorem count_reprStr (printing : Printing) (s : String) : (replaceQuotes (reprStr printing s)).count '"' = 2 + quotes s := by
  rw [replaceQuotes_reprStr, List.count_cons_self, List.count_append,
    count_flatMap_quotes (count_replaceQuotes_reprChar printing (isQuote_reprQuote s)), List.count_singleton_self, quotes]
  omega

theorem quoted_reprStr (printing : Printing) (hs : quotes s = 0) :
    Quoted [escaped printing s] (replaceQuotes (reprStr printing s)) := by
  have hsingle : reprQuote s = '\'' := by
    refine if_neg fun h => ?_
    exact List.countP_eq_zero.mp hs '\'' h.1 rfl
  have hmark : '"' ∉ escaped printing s := by
    rw [← List.count_eq_zero, escaped, count_flatMap_quotes (count_replaceQuotes_reprChar printing rfl)]
    exact hs
  rw [replaceQuotes_reprStr, hsingle]
  exact Quoted.single hmark

/-- A character that may stand in a JSON string leaves one if it is printable, and otherwise several. -/
theorem length_replaceQuotes_reprChar (printing : Printing) (hc : Unescaped c) (hsingle : c ≠ '\'') :
    1 ≤ (replaceQuotes (reprChar printing '\'' c)).length ∧
      ((replaceQuotes (reprChar printing '\'' c)).length ≤ 1 → printing.isPrintable c = true) := by
  obtain ⟨hspace, hdouble, hslash⟩ := hc
  have hc : ¬ isQuote c = true := fun hc => (of_decide_eq_true hc).elim hsingle hdouble
  rcases replaceQuotes_reprChar printing '\'' c rfl with ⟨hs, _⟩ | ⟨hq, _⟩ | ⟨_, _, hprintable, hleft⟩ | ⟨_, _, _, _, hlong⟩
  · exact absurd hs hslash
  · exact absurd hq hc
  · rw [hleft]
    exact ⟨Nat.le_refl 1, fun _ => hprintable⟩
  · exact ⟨Nat.le_of_lt (hlong hspace), fun hshort => absurd (hlong hspace) (Nat.not_lt_of_le hshort)⟩

theorem length_le_escaped {t : List Char} (ht : ∀ c ∈ t, Unescaped c ∧ c ≠ '\'') :
    t.length ≤ (t.flatMap fun c => replaceQuotes (reprChar printing '\'' c)).length := by
  induction t with
  | nil => exact Nat.le_refl 0
  | cons c t ih =>
      obtain ⟨hc, ht⟩ := List.forall_mem_cons.mp ht
      have hone := (length_replaceQuotes_reprChar printing hc.1 hc.2).1
      have hrest := ih ht
      rw [List.flatMap_cons, List.length_append, List.length_cons]
      omega

/-- Only printable characters leave no more than they are. -/
theorem printable_of_escaped {t : List Char} (ht : ∀ c ∈ t, Unescaped c ∧ c ≠ '\'')
    (h : (t.flatMap fun c => replaceQuotes (reprChar printing '\'' c)).length ≤ t.length) :
    ∀ c ∈ t, printing.isPrintable c = true := by
  induction t with
  | nil => exact fun c hc => absurd hc List.not_mem_nil
  | cons c t ih =>
      obtain ⟨hc, ht⟩ := List.forall_mem_cons.mp ht
      obtain ⟨hone, hprintable⟩ := length_replaceQuotes_reprChar printing hc.1 hc.2
      have hrest := @length_le_escaped printing t ht
      rw [List.flatMap_cons, List.length_append, List.length_cons] at h
      exact List.forall_mem_cons.mpr ⟨hprintable (by omega), ih ht (by omega)⟩

theorem unescaped_of_plain (hs : Plain printing s) {c : Char} (hc : c ∈ s.toList) : Unescaped c := by
  obtain ⟨hprintable, _, hdouble, hslash⟩ := hs c hc
  refine ⟨?_, hdouble, hslash⟩
  by_contra hcontrol
  rw [not_printable_control (Nat.lt_of_not_le hcontrol)] at hprintable
  exact Bool.false_ne_true hprintable

/-- A plain string is left as it is. -/
theorem string_of_plain (hs : Plain printing s) : StringText s.toList (replaceQuotes (reprStr printing s)) := by
  have hsingle : reprQuote s = '\'' := if_neg fun h => (hs '\'' h.1).2.1 rfl
  have hleft : (s.toList.flatMap fun c => replaceQuotes (reprChar printing '\'' c)) = s.toList := by
    have heach : ∀ c ∈ s.toList, replaceQuotes (reprChar printing '\'' c) = [c] := by
      intro c hc
      obtain ⟨hprintable, hq, hd, hslash⟩ := hs c hc
      rcases replaceQuotes_reprChar printing '\'' c rfl with ⟨h, _⟩ | ⟨h, _⟩ | ⟨_, _, _, hleft⟩ | ⟨_, _, h, _⟩
      · exact absurd h hslash
      · exact ((of_decide_eq_true h).elim hq hd).elim
      · exact hleft
      · rw [hprintable] at h
        cases h
    rw [List.flatMap_congr heach, List.flatMap_singleton']
  have hchars : ∀ t : List Char, (∀ c ∈ t, Unescaped c) → Chars t t := by
    intro t ht
    induction t with
    | nil => exact .nil
    | cons c t ih =>
        obtain ⟨⟨hspace, hd, hslash⟩, ht⟩ := List.forall_mem_cons.mp ht
        exact .plain hspace hd hslash (ih ht)
  rw [replaceQuotes_reprStr, hsingle, hleft]
  exact ⟨s.toList, hchars _ fun c hc => unescaped_of_plain hs hc, rfl⟩

/-! ## Values -/

/-- What is dumped for a kind of values with strings in them. -/
structure Dumped (printing : Printing) (E : α → List Char → Prop) (repr : α → List Char) (strings : α → List String) :
    Prop where
  reads : Reads E fun a => (strings a).map String.toList
  count : ∀ a, (replaceQuotes (repr a)).count '"' = ((strings a).map fun s => 2 + quotes s).sum
  quoted : ∀ a, (∀ s ∈ strings a, quotes s = 0) → Quoted ((strings a).map (escaped printing)) (replaceQuotes (repr a))
  text : ∀ a, (∀ s ∈ strings a, Plain printing s) → E a (replaceQuotes (repr a))

theorem two_le_sum (ss : List String) : 2 * ss.length ≤ (ss.map fun s => 2 + quotes s).sum := by
  induction ss with
  | nil => exact Nat.le_refl 0
  | cons s ss ih =>
      rw [List.map_cons, List.sum_cons, List.length_cons]
      omega

/-- Two quotation marks for each string leave none for the quotes in it. -/
theorem no_quotes_of_sum {ss : List String} (h : (ss.map fun s => 2 + quotes s).sum ≤ 2 * ss.length) :
    ∀ s ∈ ss, quotes s = 0 := by
  induction ss with
  | nil => exact fun s hs => absurd hs List.not_mem_nil
  | cons s ss ih =>
      have hrest := two_le_sum ss
      rw [List.map_cons, List.sum_cons, List.length_cons] at h
      exact List.forall_mem_cons.mpr ⟨by omega, ih (by omega)⟩

theorem dumped_string (printing : Printing) :
    Dumped printing (fun (s : String) t => StringText s.toList t) (reprStr printing) fun s => [s] where
  reads s t h ht := reads_string s.toList t h ht
  count s := by rw [count_reprStr, List.map_singleton, List.sum_singleton]
  quoted s hs := quoted_reprStr printing (hs s List.mem_cons_self)
  text s hs := string_of_plain (hs s List.mem_cons_self)

/-! ## Lists -/

theorem intercalate_cons_cons (sep t u : List Char) (ts : List (List Char)) :
    sep.intercalate (t :: u :: ts) = t ++ (sep ++ sep.intercalate (u :: ts)) := by
  simp [List.intercalate]

theorem intercalate_singleton (sep t : List Char) : sep.intercalate [t] = t := by
  simp [List.intercalate]

/-- What is left of the elements, with commas and spaces between them. -/
theorem replaceQuotes_cons_cons (t u : List Char) (ts : List (List Char)) :
    replaceQuotes ([',', ' '].intercalate (t :: u :: ts)) =
      replaceQuotes t ++ ',' :: ' ' :: replaceQuotes ([',', ' '].intercalate (u :: ts)) := by
  rw [intercalate_cons_cons, replaceQuotes_append, replaceQuotes_append]
  rfl

theorem replaceQuotes_strList (repr : α → List Char) (values : List α) : replaceQuotes (strList repr values) =
    '[' :: (replaceQuotes ([',', ' '].intercalate (values.map repr)) ++ [']']) := by
  rw [strList, replaceQuotes_cons (by decide), if_neg (by decide), replaceQuotes_append]
  rfl

/-- White space may stand before an element. -/
theorem elements_space {E : α → List Char → Prop} {as : List α} {u : List Char} (h : Elements E as u) :
    Elements E as (' ' :: u) := by
  have hpadded {a : α} {t : List Char} (ha : Padded E a t) : Padded E a (' ' :: t) := by
    obtain ⟨l, u, r, hl, hu, hr, rfl⟩ := ha
    exact ⟨' ' :: l, u, r, List.forall_mem_cons.mpr ⟨rfl, hl⟩, hu, hr, rfl⟩
  cases h with
  | one ha => exact .one (hpadded ha)
  | cons ha has => exact .cons (hpadded ha) has

namespace Dumped

variable {E : α → List Char → Prop} {repr : α → List Char} {strings : α → List String}

theorem padded_text (h : Dumped printing E repr strings) {a : α} (ha : ∀ s ∈ strings a, Plain printing s) :
    Padded E a (replaceQuotes (repr a)) :=
  ⟨[], replaceQuotes (repr a), [], fun _ hc => absurd hc List.not_mem_nil, h.text a ha, fun _ hc => absurd hc List.not_mem_nil,
    (List.append_nil _).symm⟩

theorem count_elements (h : Dumped printing E repr strings) (as : List α) :
    (replaceQuotes ([',', ' '].intercalate (as.map repr))).count '"' = ((as.flatMap strings).map fun s => 2 + quotes s).sum := by
  induction as with
  | nil => rfl
  | cons a as ih =>
      rw [List.flatMap_cons, List.map_append, List.sum_append, ← h.count a, ← ih, List.map_cons]
      cases as with
      | nil =>
          rw [List.map_nil, intercalate_singleton]
          rfl
      | cons b as =>
          rw [List.map_cons, replaceQuotes_cons_cons, List.count_append, List.count_cons_of_ne (by decide),
            List.count_cons_of_ne (by decide)]

theorem quoted_elements (h : Dumped printing E repr strings) {as : List α} (has : ∀ s ∈ as.flatMap strings, quotes s = 0) :
    Quoted ((as.flatMap strings).map (escaped printing)) (replaceQuotes ([',', ' '].intercalate (as.map repr))) := by
  induction as with
  | nil => exact .nil List.not_mem_nil
  | cons a as ih =>
      rw [List.flatMap_cons] at has
      have ha := h.quoted a fun s hs => has s (List.mem_append_left _ hs)
      have hrest := ih fun s hs => has s (List.mem_append_right _ hs)
      rw [List.flatMap_cons, List.map_append, List.map_cons]
      cases as with
      | nil =>
          rw [List.map_nil, intercalate_singleton, List.flatMap_nil, List.map_nil, List.append_nil]
          exact ha
      | cons b as =>
          rw [List.map_cons, replaceQuotes_cons_cons]
          exact ha.append (@Quoted.gap [',', ' '] _ _ (by decide) hrest)

theorem text_elements (h : Dumped printing E repr strings) {a : α} {as : List α}
    (has : ∀ s ∈ (a :: as).flatMap strings, Plain printing s) :
    Elements E (a :: as) (replaceQuotes ([',', ' '].intercalate ((a :: as).map repr))) := by
  induction as generalizing a with
  | nil =>
      rw [List.flatMap_singleton] at has
      rw [List.map_cons, List.map_nil, intercalate_singleton]
      exact .one (h.padded_text has)
  | cons b as ih =>
      rw [List.flatMap_cons] at has
      have ha := h.padded_text fun s hs => has s (List.mem_append_left _ hs)
      have hrest := @ih b fun s hs => has s (List.mem_append_right _ hs)
      rw [List.map_cons, List.map_cons, replaceQuotes_cons_cons]
      exact .cons ha (elements_space hrest)

/-- A list is dumped as its elements are. -/
theorem list (h : Dumped printing E repr strings) :
    Dumped printing (ArrayText E) (strList repr) fun as => as.flatMap strings where
  reads as t hread ht := by
    have hstrings : ((as.flatMap strings).map String.toList) = as.flatMap fun a => (strings a).map String.toList := by
      rw [List.map_flatMap]
    dsimp only
    rw [hstrings]
    exact h.reads.array as t hread ht
  count as := by
    rw [replaceQuotes_strList, List.count_cons_of_ne (by decide), List.count_append, h.count_elements]
    rfl
  quoted as has := by
    have hclosed := (h.quoted_elements has).append (@Quoted.nil [']'] (by decide))
    rw [List.append_nil] at hclosed
    rw [replaceQuotes_strList]
    exact @Quoted.gap ['['] _ _ (by decide) hclosed
  text as has := by
    rw [replaceQuotes_strList]
    cases as with
    | nil => exact ⟨[], rfl, Or.inr ⟨rfl, fun c hc => absurd hc List.not_mem_nil⟩⟩
    | cons a as => exact ⟨_, rfl, Or.inl (h.text_elements has)⟩

/-- The text is read as the value exactly when all strings in it are plain. -/
theorem text_iff (h : Dumped printing E repr strings) (a : α) :
    Padded E a (replaceQuotes (repr a)) ↔ ∀ s ∈ strings a, Plain printing s := by
  refine ⟨fun hread => ?_, h.padded_text⟩
  obtain ⟨hquoted, hunescaped⟩ := h.reads.padded a _ hread (not_slash_replaceQuotes _)
  have hquotes : ∀ s ∈ strings a, quotes s = 0 := by
    have hcount := (h.count a).symm.trans hquoted.count
    rw [List.length_map] at hcount
    exact no_quotes_of_sum hcount.le
  have hsame : ∀ s ∈ strings a, escaped printing s = s.toList := List.map_inj_left.mp ((h.quoted a hquotes).unique hquoted)
  intro s hs c hc
  have hplain : ∀ c ∈ s.toList, Unescaped c ∧ c ≠ '\'' := by
    refine fun c hc => ⟨hunescaped s.toList (List.mem_map_of_mem hs) c hc, ?_⟩
    rintro rfl
    exact List.countP_eq_zero.mp (hquotes s hs) '\'' hc rfl
  obtain ⟨⟨_, hdouble, hslash⟩, hsingle⟩ := hplain c hc
  exact ⟨printable_of_escaped hplain (congrArg List.length (hsame s hs)).le c hc, hsingle, hdouble, hslash⟩

end Dumped

end Backend
