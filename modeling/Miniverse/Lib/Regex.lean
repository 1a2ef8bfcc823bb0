import Mathlib.Tactic.Common

/-!
# Backtracking regular expressions

A pattern is matched at the start of a text. The matcher lists all the ways to match in the order in which a
backtracking matcher tries them; the first is the result. `Matches` is what a pattern means, without the order.
-/

namespace Lib

inductive Regex where
  | lit (text : List Char)
  /-- `c{min,max}` for one class of characters, greedy. -/
  | rep (p : Char → Bool) (min : Nat) (max : Option Nat)
  /-- `(?P<name>r)` -/
  | group (name : String) (r : Regex)
  /-- `(?:r)?`, greedy. -/
  | opt (r : Regex)
  | alt (r s : Regex)
  | seq (r s : Regex)
  /-- `$`: the end of the text, or the newline that ends it. -/
  | eos

/-- A way to match: the text taken, the groups in it, and the text after it. -/
structure Match where
  taken : List Char
  groups : List (String × List Char)
  rest : List Char

/-- `m.group(name)` -/
def Match.group (m : Match) (name : String) : Option (List Char) := m.groups.lookup name

namespace Regex

/-- The longest repetition first. -/
def repLengths (p : Char → Bool) (min : Nat) (max : Option Nat) (text : List Char) : List Nat :=
  let all := (text.takeWhile p).length
  let longest := match max with
    | none => all
    | some m => Nat.min m all
  ((List.range (longest + 1)).reverse).filter fun k => decide (min ≤ k)

def run : Regex → List Char → List Match
  | lit s, text => if s <+: text then [⟨s, [], text.drop s.length⟩] else []
  | rep p min max, text => (repLengths p min max text).map fun k => ⟨text.take k, [], text.drop k⟩
  | group name r, text => (r.run text).map fun m => ⟨m.taken, (name, m.taken) :: m.groups, m.rest⟩
  | opt r, text => r.run text ++ [⟨[], [], text⟩]
  | alt r s, text => r.run text ++ s.run text
  | seq r s, text => (r.run text).flatMap fun m =>
      (s.run m.rest).map fun n => ⟨m.taken ++ n.taken, m.groups ++ n.groups, n.rest⟩
  | eos, text => if text = [] ∨ text = ['\n'] then [⟨[], [], text⟩] else []

/-- `re.match(pattern, text)` -/
def «match» (r : Regex) (text : List Char) : Option Match := (r.run text).head?

/-- `r` takes `taken` before `rest`, with these groups. -/
def Matches : Regex → List Char → List (String × List Char) → List Char → Prop
  | lit s, taken, groups, _ => taken = s ∧ groups = []
  | rep p min max, taken, groups, _ =>
      groups = [] ∧ (∀ c ∈ taken, p c = true) ∧ min ≤ taken.length ∧ ∀ m ∈ max, taken.length ≤ m
  | group name r, taken, groups, rest => ∃ inner, groups = (name, taken) :: inner ∧ Matches r taken inner rest
  | opt r, taken, groups, rest => Matches r taken groups rest ∨ taken = [] ∧ groups = []
  | alt r s, taken, groups, rest => Matches r taken groups rest ∨ Matches s taken groups rest
  | seq r s, taken, groups, rest => ∃ t₁ t₂ g₁ g₂, taken = t₁ ++ t₂ ∧ groups = g₁ ++ g₂ ∧
      Matches r t₁ g₁ (t₂ ++ rest) ∧ Matches s t₂ g₂ rest
  | eos, taken, groups, rest => taken = [] ∧ groups = [] ∧ (rest = [] ∨ rest = ['\n'])

theorem take_takeWhile {p : Char → Bool} {text : List Char} {k : Nat} :
    k ≤ (text.takeWhile p).length ↔ k ≤ text.length ∧ ∀ c ∈ text.take k, p c = true := by
  induction text generalizing k with
  | nil => simp
  | cons c text ih =>
      cases k with
      | zero => simp
      | succ k =>
          by_cases hc : p c = true
          · simp [hc, ih]
          · simp [hc]

theorem mem_repLengths {p : Char → Bool} {min : Nat} {max : Option Nat} {text : List Char} {k : Nat} :
    k ∈ repLengths p min max text ↔
      k ≤ text.length ∧ (∀ c ∈ text.take k, p c = true) ∧ min ≤ k ∧ ∀ m ∈ max, k ≤ m := by
  simp only [repLengths, List.mem_filter, List.mem_reverse, List.mem_range, Nat.lt_succ_iff, decide_eq_true_eq]
  cases max with
  | none => simp [take_takeWhile, and_assoc]
  | some m =>
      simp only [Nat.min_def, Option.mem_def, Option.some.injEq, forall_eq']
      have h := @take_takeWhile p text k
      constructor
      · rintro ⟨hk, hmin⟩
        split at hk
        · exact ⟨(h.mp (by omega)).1, (h.mp (by omega)).2, hmin, hk⟩
        · exact ⟨(h.mp hk).1, (h.mp hk).2, hmin, by omega⟩
      · rintro ⟨hlen, hall, hmin, hm⟩
        have := h.mpr ⟨hlen, hall⟩
        refine ⟨?_, hmin⟩
        split <;> omega

/-- The matcher lists exactly the ways to match. -/
theorem mem_run {r : Regex} {text : List Char} {m : Match} :
    m ∈ r.run text ↔ text = m.taken ++ m.rest ∧ r.Matches m.taken m.groups m.rest := by
  induction r generalizing text m with
  | lit s =>
      unfold run Matches
      split
      · rename_i h
        obtain ⟨rest, rfl⟩ := h
        obtain ⟨taken, groups, rest'⟩ := m
        simp only [List.drop_left, List.mem_singleton, Match.mk.injEq]
        constructor
        · rintro ⟨rfl, rfl, rfl⟩
          exact ⟨rfl, rfl, rfl⟩
        · rintro ⟨h, rfl, rfl⟩
          exact ⟨rfl, rfl, (List.append_cancel_left h).symm⟩
      · rename_i h
        constructor
        · intro hm
          cases hm
        · rintro ⟨rfl, rfl, _⟩
          exact absurd (List.prefix_append _ _) h
  | rep p min max =>
      unfold run Matches
      simp only [List.mem_map, mem_repLengths]
      constructor
      · rintro ⟨k, ⟨hlen, hall, hmin, hmax⟩, rfl⟩
        refine ⟨(List.take_append_drop k text).symm, rfl, hall, ?_⟩
        simpa [List.length_take, Nat.min_eq_left hlen] using ⟨hmin, hmax⟩
      · obtain ⟨taken, groups, rest⟩ := m
        rintro ⟨rfl, rfl, hall, hmin, hmax⟩
        refine ⟨taken.length, ⟨by simp, by simpa using hall, hmin, hmax⟩, ?_⟩
        simp
  | group name r ih =>
      unfold run Matches
      simp only [List.mem_map, ih]
      constructor
      · rintro ⟨m', ⟨htext, hm⟩, rfl⟩
        exact ⟨htext, m'.groups, rfl, hm⟩
      · obtain ⟨taken, groups, rest⟩ := m
        rintro ⟨htext, inner, hgroups, hm⟩
        exact ⟨⟨taken, inner, rest⟩, ⟨htext, hm⟩, congrArg (Match.mk taken · rest) hgroups.symm⟩
  | opt r ih =>
      unfold run Matches
      simp only [List.mem_append, ih, List.mem_singleton]
      constructor
      · rintro (⟨htext, hm⟩ | rfl)
        · exact ⟨htext, Or.inl hm⟩
        · exact ⟨rfl, Or.inr ⟨rfl, rfl⟩⟩
      · obtain ⟨taken, groups, rest⟩ := m
        rintro ⟨htext, hm | ⟨rfl, rfl⟩⟩
        · exact Or.inl ⟨htext, hm⟩
        · exact Or.inr (by simpa using htext.symm)
  | alt r s ihr ihs =>
      unfold run Matches
      simp only [List.mem_append, ihr, ihs, and_or_left]
  | seq r s ihr ihs =>
      unfold run Matches
      simp only [List.mem_flatMap, List.mem_map, ihr, ihs]
      constructor
      · rintro ⟨m₁, ⟨htext, h₁⟩, m₂, ⟨hrest, h₂⟩, rfl⟩
        refine ⟨by rw [htext, hrest, List.append_assoc], _, _, _, _, rfl, rfl, ?_, h₂⟩
        rw [← hrest]
        exact h₁
      · obtain ⟨taken, groups, rest⟩ := m
        rintro ⟨htext, t₁, t₂, g₁, g₂, rfl, rfl, h₁, h₂⟩
        refine ⟨⟨t₁, g₁, t₂ ++ rest⟩, ⟨by rw [htext, List.append_assoc], h₁⟩, ⟨t₂, g₂, rest⟩, ⟨rfl, h₂⟩, rfl⟩
  | eos =>
      unfold run Matches
      obtain ⟨taken, groups, rest⟩ := m
      split
      · rename_i h
        simp only [List.mem_singleton, Match.mk.injEq]
        constructor
        · rintro ⟨rfl, rfl, rfl⟩
          exact ⟨rfl, rfl, rfl, h⟩
        · rintro ⟨rfl, rfl, rfl, _⟩
          exact ⟨rfl, rfl, rfl⟩
      · rename_i h
        constructor
        · intro hm
          cases hm
        · rintro ⟨rfl, rfl, rfl, hrest⟩
          exact absurd hrest h

theorem matches_of_match {r : Regex} {text : List Char} {m : Match} (h : r.match text = some m) :
    text = m.taken ++ m.rest ∧ r.Matches m.taken m.groups m.rest :=
  mem_run.mp (List.mem_of_mem_head? h)

theorem match_eq_none {r : Regex} {text : List Char} :
    r.match text = none ↔ ∀ taken groups rest, text = taken ++ rest → ¬ r.Matches taken groups rest := by
  rw [«match», List.head?_eq_none_iff]
  constructor
  · intro h taken groups rest htext hm
    have hmem : (⟨taken, groups, rest⟩ : Match) ∈ r.run text := mem_run.mpr ⟨htext, hm⟩
    rw [h] at hmem
    cases hmem
  · intro h
    refine List.eq_nil_iff_forall_not_mem.mpr fun m hm => ?_
    obtain ⟨htext, hmatch⟩ := mem_run.mp hm
    exact h _ _ _ htext hmatch

/-- `r₁ r₂ … rₙ` -/
def ofList : List Regex → Regex
  | [] => lit []
  | [r] => r
  | r :: rs => seq r (ofList rs)

/-! ## Groups -/

/-- The patterns of the groups of a name. -/
def groupsNamed (name : String) : Regex → List Regex
  | group n r => (if n = name then [r] else []) ++ r.groupsNamed name
  | opt r => r.groupsNamed name
  | alt r s => r.groupsNamed name ++ s.groupsNamed name
  | seq r s => r.groupsNamed name ++ s.groupsNamed name
  | _ => []

/-- Every match has a group of the name. -/
def requires (name : String) : Regex → Bool
  | group n r => decide (n = name) || r.requires name
  | alt r s => r.requires name && s.requires name
  | seq r s => r.requires name || s.requires name
  | _ => false

theorem matches_of_mem_groups {r : Regex} {taken rest t : List Char} {groups : List (String × List Char)} {name : String}
    (h : r.Matches taken groups rest) (hmem : (name, t) ∈ groups) :
    ∃ s ∈ r.groupsNamed name, ∃ inner rest', s.Matches t inner rest' := by
  induction r generalizing taken groups rest with
  | lit s =>
      rw [h.2] at hmem
      cases hmem
  | rep p min max =>
      rw [h.1] at hmem
      cases hmem
  | group n r ih =>
      obtain ⟨inner, rfl, hr⟩ := h
      rcases List.mem_cons.mp hmem with heq | hmem
      · obtain ⟨rfl, rfl⟩ := Prod.mk.inj heq
        exact ⟨r, by simp [groupsNamed], inner, rest, hr⟩
      · obtain ⟨s, hs, hm⟩ := ih hr hmem
        exact ⟨s, List.mem_append_right _ hs, hm⟩
  | opt r ih =>
      rcases h with h | ⟨_, rfl⟩
      · exact ih h hmem
      · cases hmem
  | alt r s ihr ihs =>
      rcases h with h | h
      · obtain ⟨u, hu, hm⟩ := ihr h hmem
        exact ⟨u, List.mem_append_left _ hu, hm⟩
      · obtain ⟨u, hu, hm⟩ := ihs h hmem
        exact ⟨u, List.mem_append_right _ hu, hm⟩
  | seq r s ihr ihs =>
      obtain ⟨t₁, t₂, g₁, g₂, _, rfl, h₁, h₂⟩ := h
      rcases List.mem_append.mp hmem with hmem | hmem
      · obtain ⟨u, hu, hm⟩ := ihr h₁ hmem
        exact ⟨u, List.mem_append_left _ hu, hm⟩
      · obtain ⟨u, hu, hm⟩ := ihs h₂ hmem
        exact ⟨u, List.mem_append_right _ hu, hm⟩
  | eos =>
      rw [h.2.1] at hmem
      cases hmem

theorem exists_group_of_requires {r : Regex} {taken rest : List Char} {groups : List (String × List Char)} {name : String}
    (h : r.Matches taken groups rest) (hreq : r.requires name = true) : ∃ t, (name, t) ∈ groups := by
  induction r generalizing taken groups rest with
  | lit s => cases hreq
  | rep p min max => cases hreq
  | group n r ih =>
      obtain ⟨inner, rfl, hr⟩ := h
      simp only [requires, Bool.or_eq_true, decide_eq_true_eq] at hreq
      rcases hreq with rfl | hreq
      · exact ⟨taken, List.mem_cons_self⟩
      · obtain ⟨t, ht⟩ := ih hr hreq
        exact ⟨t, List.mem_cons_of_mem _ ht⟩
  | opt r ih => cases hreq
  | alt r s ihr ihs =>
      simp only [requires, Bool.and_eq_true] at hreq
      rcases h with h | h
      · exact ihr h hreq.1
      · exact ihs h hreq.2
  | seq r s ihr ihs =>
      obtain ⟨t₁, t₂, g₁, g₂, _, rfl, h₁, h₂⟩ := h
      simp only [requires, Bool.or_eq_true] at hreq
      rcases hreq with hreq | hreq
      · obtain ⟨t, ht⟩ := ihr h₁ hreq
        exact ⟨t, List.mem_append_left _ ht⟩
      · obtain ⟨t, ht⟩ := ihs h₂ hreq
        exact ⟨t, List.mem_append_right _ ht⟩
  | eos => cases hreq

/-- A required group has a text, which one of the patterns of its name matches. -/
theorem group_of_match {r : Regex} {text : List Char} {m : Match} {name : String} (h : r.match text = some m)
    (hreq : r.requires name = true) :
    ∃ t, m.group name = some t ∧ ∃ s ∈ r.groupsNamed name, ∃ inner rest, s.Matches t inner rest := by
  have hm := (matches_of_match h).2
  obtain ⟨t, ht⟩ := exists_group_of_requires hm hreq
  have hlookup : (m.groups.lookup name).isSome = true := by
    rw [List.lookup_isSome_iff]
    exact ⟨(name, t), ht, beq_self_eq_true name⟩
  obtain ⟨t', ht'⟩ := Option.isSome_iff_exists.mp hlookup
  refine ⟨t', ht', matches_of_mem_groups hm ?_⟩
  obtain ⟨l₁, l₂, hgroups, _⟩ := List.lookup_eq_some_iff.mp ht'
  rw [hgroups]
  simp

end Regex

end Lib
