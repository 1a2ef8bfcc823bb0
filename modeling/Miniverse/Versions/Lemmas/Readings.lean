import Miniverse.Versions.Lemmas.Words

/-!
# What is read from a word

A text is a word of at most one type with one choice of groups. The parser reads these groups, whatever the order of the
formats.
-/

namespace Backend

open Lib

variable {type type' : VersionType} {system system' : VersionSystem} {parts parts' : VersionParts} {text : List Char}

/-! ## Tokens -/

namespace VersionParts

def mainTokens (parts : VersionParts) : List (List Char) :=
  parts.major :: ['.'] :: parts.minor :: parts.patch.elim [] fun patch => [['.'], patch]

/-- The digit groups and what stands between them. -/
def tokens (parts : VersionParts) : VersionType → VersionSystem → List (List Char)
  | .release, _ => parts.mainTokens
  | .prerelease, .old => parts.mainTokens ++ ['-' :: (parts.suffix.getD "").toList, parts.type_version]
  | .prerelease, .new | .snapshot, .new =>
      parts.mainTokens ++ ['-' :: (parts.suffix.getD "").toList ++ ['-'], parts.type_version]
  | .snapshot, .old => [parts.major, ['w'], parts.minor, parts.type_version]

end VersionParts

/-- What the text before the last number says. -/
def readTail (tail : List Char) : Option (VersionType × VersionSystem × String) :=
  [("-pre".toList, .prerelease, .old, "pre"), ("-rc".toList, .prerelease, .old, "rc"), ("-pre-".toList, .prerelease, .new, "pre"),
    ("-rc-".toList, .prerelease, .new, "rc"), ("-snapshot-".toList, .snapshot, .new, "snapshot")].lookup tail

/-- The type and the groups of tokens. The numbering system of a release cannot be told. -/
def readTokens : List (List Char) → Option (VersionType × Option VersionSystem × VersionParts)
  | [major, _, minor] => some (.release, none, ⟨major, minor, none, none, []⟩)
  | [year, _, week, letter] => some (.snapshot, some .old, ⟨year, week, none, none, letter⟩)
  | [major, _, minor, tail, last] =>
      if tail = ['.'] then some (.release, none, ⟨major, minor, some last, none, []⟩)
      else (readTail tail).map fun t => (t.1, some t.2.1, ⟨major, minor, none, some t.2.2, last⟩)
  | [major, _, minor, _, patch, tail, last] =>
      (readTail tail).map fun t => (t.1, some t.2.1, ⟨major, minor, some patch, some t.2.2, last⟩)
  | _ => none

theorem readTokens_numbered {tail : List Char} {suffix : String} (parts : VersionParts)
    (htail : readTail tail = some (type, system, suffix)) (hdot : tail ≠ ['.']) (hsuffix : parts.suffix = some suffix) :
    readTokens (parts.mainTokens ++ [tail, parts.type_version]) = some (type, some system, parts) := by
  obtain ⟨major, minor, patch, _, number⟩ := parts
  obtain rfl := hsuffix
  cases patch with
  | none => simp [VersionParts.mainTokens, readTokens, hdot, htail]
  | some patch => simp [VersionParts.mainTokens, readTokens, htail]

theorem readTokens_tokens (h : VersionWord type system parts text) : readTokens (parts.tokens type system) =
    some (type, if type = .release then none else some system, parts) := by
  cases h with
  | old_release hmain hsuffix hnumber =>
      obtain ⟨major, minor, patch, suffix, number⟩ := parts
      obtain rfl : suffix = none := hsuffix
      obtain rfl : number = [] := hnumber
      cases patch <;> rfl
  | new_release hmain hsuffix hnumber =>
      obtain ⟨major, minor, patch, suffix, number⟩ := parts
      obtain rfl : suffix = none := hsuffix
      obtain rfl : number = [] := hnumber
      cases patch <;> rfl
  | old_prerelease hmain hparts hsuffix hnumber =>
      unfold VersionParts.tokens
      rw [hparts]
      rcases hsuffix with rfl | rfl
      · exact readTokens_numbered parts rfl (by decide) hparts
      · exact readTokens_numbered parts rfl (by decide) hparts
  | new_prerelease hmain hparts hsuffix hnumber =>
      unfold VersionParts.tokens
      rw [hparts]
      rcases hsuffix with rfl | rfl
      · exact readTokens_numbered parts rfl (by decide) hparts
      · exact readTokens_numbered parts rfl (by decide) hparts
  | old_snapshot hyear hweek hpatch hsuffix hletter =>
      obtain ⟨year, week, patch, suffix, letter⟩ := parts
      obtain rfl : patch = none := hpatch
      obtain rfl : suffix = none := hsuffix
      rfl
  | new_snapshot hmain hparts hnumber =>
      unfold VersionParts.tokens
      rw [hparts]
      exact readTokens_numbered parts rfl (by decide) hparts

/-! ## Digits and other characters -/

theorem isDecimal_ascii {c : Char} (hlow : 0x3A ≤ c.toNat) (hhigh : c.toNat < 0x660) : isDecimal c = false := by
  have hzeros : ∀ z ∈ digitZeros, z + 10 ≤ 0x3A ∨ 0x660 ≤ z := by decide
  have hnone : (digitZeros.find? fun z => decide (z ≤ c.toNat ∧ c.toNat < z + 10)) = none := by
    refine List.find?_eq_none.mpr fun z hz => ?_
    have := hzeros z hz
    simp only [decide_eq_true_eq]
    omega
  rw [isDecimal, digitValue, hnone]
  rfl

theorem isDecimal_letter {c : Char} (hlow : 'a' ≤ c) (hhigh : c ≤ 'z') : isDecimal c = false := by
  have hlow : 'a'.toNat ≤ c.toNat := hlow
  have hhigh : c.toNat ≤ 'z'.toNat := hhigh
  exact isDecimal_ascii (le_trans (by decide) hlow) (lt_of_le_of_lt hhigh (by decide))

theorem Digits.ne_nil {min : Nat} {max : Option Nat} {cs : List Char} (h : Digits (min + 1) max cs) : cs ≠ [] := by
  rintro rfl
  exact absurd h.2.1 (Nat.not_succ_le_zero min)

/-- Tokens that begin with a number. -/
theorem alternates_number {min : Nat} {max : Option Nat} {number : List Char} {ts : List (List Char)}
    (hnumber : Digits (min + 1) max number) (hts : Alternates isDecimal false ts) :
    Alternates isDecimal true (number :: ts) := ⟨hnumber.ne_nil, hnumber.1, hts⟩

/-- Tokens that begin with a text between numbers. -/
theorem alternates_between {between : List Char} {ts : List (List Char)} (hne : between ≠ [])
    (hbetween : ∀ c ∈ between, isDecimal c = false) (hts : Alternates isDecimal true ts) :
    Alternates isDecimal false (between :: ts) := ⟨hne, hbetween, hts⟩

theorem alternates_main {min min' : Nat} {max max' : Option Nat} {ts : List (List Char)}
    (hmain : Digits (min + 1) max parts.major ∧ Digits (min' + 1) max' parts.minor ∧
      ∀ patch ∈ parts.patch, Digits (min' + 1) max' patch) (hts : Alternates isDecimal false ts) :
    Alternates isDecimal true (parts.mainTokens ++ ts) := by
  obtain ⟨hmajor, hminor, hpatch⟩ := hmain
  have hdot : ∀ c ∈ ['.'], isDecimal c = false := List.forall_mem_singleton.mpr rfl
  refine alternates_number hmajor (alternates_between (by decide) hdot (alternates_number hminor ?_))
  cases hparts : parts.patch with
  | none => exact hts
  | some patch => exact alternates_between (by decide) hdot (alternates_number (hpatch patch hparts) hts)

theorem isDecimal_tail {tail : List Char} (h : (readTail tail).isSome = true) : tail ≠ [] ∧ ∀ c ∈ tail, isDecimal c = false := by
  obtain ⟨t, ht⟩ := Option.isSome_iff_exists.mp h
  obtain ⟨l₁, l₂, htails, _⟩ := List.lookup_eq_some_iff.mp ht
  have hmem : (tail, t) ∈ l₁ ++ (tail, t) :: l₂ := by simp
  rw [← htails] at hmem
  have hall : ([("-pre".toList, VersionType.prerelease, VersionSystem.old, "pre"), ("-rc".toList, .prerelease, .old, "rc"),
      ("-pre-".toList, .prerelease, .new, "pre"), ("-rc-".toList, .prerelease, .new, "rc"),
      ("-snapshot-".toList, .snapshot, .new, "snapshot")].all fun e => !e.1.isEmpty && e.1.all fun c => !isDecimal c) = true := by
    decide
  have htail := List.all_eq_true.mp hall _ hmem
  simpa using htail

/-- The tokens of a word. -/
theorem alternates_tokens (h : VersionWord type system parts text) :
    Alternates isDecimal true (parts.tokens type system) ∧ (parts.tokens type system).flatten = text := by
  have hmainText : parts.mainTokens.flatten = parts.mainText := by
    cases hpatch : parts.patch <;> simp [VersionParts.mainTokens, VersionParts.mainText, hpatch]
  have hnumbered {tail : List Char} (htail : (readTail tail).isSome = true) (hnumber : Digits 1 none parts.type_version) :
      Alternates isDecimal false [tail, parts.type_version] := by
    obtain ⟨hne, hall⟩ := isDecimal_tail htail
    exact alternates_between hne hall (alternates_number hnumber trivial)
  cases h with
  | old_release hmain hsuffix hnumber =>
      have htokens : Alternates isDecimal true (parts.mainTokens ++ []) := alternates_main hmain trivial
      rw [List.append_nil] at htokens
      exact ⟨htokens, hmainText⟩
  | new_release hmain hsuffix hnumber =>
      have htokens : Alternates isDecimal true (parts.mainTokens ++ []) := alternates_main hmain trivial
      rw [List.append_nil] at htokens
      exact ⟨htokens, hmainText⟩
  | old_prerelease hmain hparts hsuffix hnumber =>
      unfold VersionParts.tokens
      rw [hparts]
      refine ⟨alternates_main hmain (hnumbered ?_ hnumber), by simp [hmainText]⟩
      rcases hsuffix with rfl | rfl <;> rfl
  | new_prerelease hmain hparts hsuffix hnumber =>
      unfold VersionParts.tokens
      rw [hparts]
      refine ⟨alternates_main hmain (hnumbered ?_ hnumber), by simp [hmainText]⟩
      rcases hsuffix with rfl | rfl <;> rfl
  | @old_snapshot _ letter hyear hweek hpatch hsuffix hletter hlow hhigh =>
      have hclass : ∀ c ∈ [letter], isDecimal c = false := by simpa using isDecimal_letter hlow hhigh
      unfold VersionParts.tokens
      rw [hletter]
      have hletters : Alternates isDecimal false [[letter]] := alternates_between (List.cons_ne_nil _ _) hclass trivial
      have hweeks := alternates_between (List.cons_ne_nil 'w' []) (List.forall_mem_singleton.mpr rfl) (alternates_number hweek hletters)
      exact ⟨alternates_number hyear hweeks, by simp⟩
  | new_snapshot hmain hparts hnumber =>
      unfold VersionParts.tokens
      rw [hparts]
      exact ⟨alternates_main hmain (hnumbered rfl hnumber), by simp [hmainText]⟩

/-- A text is a word of one type with one choice of groups, and of two numbering systems only as a release. -/
theorem VersionWord.unique (h : VersionWord type system parts text) (h' : VersionWord type' system' parts' text) :
    type = type' ∧ parts = parts' ∧ (type = .release ∨ system = system') := by
  obtain ⟨halternates, htext⟩ := alternates_tokens h
  obtain ⟨halternates', htext'⟩ := alternates_tokens h'
  have htokens := halternates.unique halternates' (htext.trans htext'.symm)
  have hread := readTokens_tokens h
  rw [htokens, readTokens_tokens h'] at hread
  obtain ⟨rfl, hrest⟩ := Prod.mk.inj (Option.some.inj hread)
  obtain ⟨hsystem, rfl⟩ := Prod.mk.inj hrest
  refine ⟨rfl, rfl, ?_⟩
  by_cases hrelease : type' = .release
  · exact Or.inl hrelease
  · rw [if_neg hrelease, if_neg hrelease] at hsystem
    exact Or.inr (Option.some.inj hsystem).symm

theorem Digits.newline {min : Nat} {max : Option Nat} {cs : List Char} (h : Digits min max cs) : '\n' ∉ cs := by
  intro hmem
  exact absurd (h.1 _ hmem) (by decide)

theorem mainText_newline {min min' : Nat} {max max' : Option Nat} (hmain : Digits min max parts.major ∧
    Digits min' max' parts.minor ∧ ∀ patch ∈ parts.patch, Digits min' max' patch) : '\n' ∉ parts.mainText := by
  obtain ⟨hmajor, hminor, hpatch⟩ := hmain
  cases hparts : parts.patch with
  | none => simp [VersionParts.mainText, hparts, hmajor.newline, hminor.newline]
  | some patch => simp [VersionParts.mainText, hparts, hmajor.newline, hminor.newline, (hpatch patch hparts).newline]

/-- No character of a word ends a line. -/
theorem VersionWord.newline (h : VersionWord type system parts text) : '\n' ∉ text := by
  cases h with
  | old_release hmain => exact mainText_newline hmain
  | new_release hmain => exact mainText_newline hmain
  | old_prerelease hmain hparts hsuffix hnumber =>
      rcases hsuffix with rfl | rfl <;> simp [mainText_newline hmain, hnumber.newline]
  | new_prerelease hmain hparts hsuffix hnumber =>
      rcases hsuffix with rfl | rfl <;> simp [mainText_newline hmain, hnumber.newline]
  | @old_snapshot _ letter hyear hweek hpatch hsuffix hletter hlow hhigh =>
      have hne : '\n' ≠ letter := by
        rintro rfl
        exact absurd hlow (by decide)
      simp [hyear.newline, hweek.newline, hne]
  | new_snapshot hmain hparts hnumber => simp [mainText_newline hmain, hnumber.newline]

/-- Where the word ends is determined, too. -/
theorem VersionWord.unique_end {text' rest rest' : List Char} (h : VersionWord type system parts text)
    (h' : VersionWord type' system' parts' text') (hrest : AtEnd rest) (hrest' : AtEnd rest')
    (heq : text ++ rest = text' ++ rest') : text = text' ∧ rest = rest' := by
  rcases hrest with rfl | rfl
  · rcases hrest' with rfl | rfl
    · exact ⟨List.append_cancel_right heq, rfl⟩
    · rw [List.append_nil] at heq
      exact absurd (heq ▸ List.mem_append_right _ List.mem_cons_self) h.newline
  · rcases hrest' with rfl | rfl
    · rw [List.append_nil] at heq
      exact absurd (heq ▸ List.mem_append_right _ List.mem_cons_self) h'.newline
    · exact ⟨List.append_cancel_right heq, rfl⟩

/-! ## Reading -/

theorem int_short {digits : List Char} (h : digits.length ≤ 4300) : int digits = .ok (decimalValue digits) :=
  if_neg (by omega)

theorem int_long {digits : List Char} (h : ¬ digits.length ≤ 4300) : ∃ e, int digits = .error e :=
  ⟨_, if_pos (by omega)⟩

theorem int_ok {digits : List Char} {n : Nat} (h : int digits = .ok n) : n = decimalValue digits ∧ digits.length ≤ 4300 := by
  by_cases hshort : digits.length ≤ 4300
  · rw [int_short hshort] at h
    exact ⟨(Except.ok.inj h).symm, hshort⟩
  · obtain ⟨e, he⟩ := int_long hshort
    rw [he] at h
    cases h

/-- `int(match.group("patch") or 0)` -/
def intPatch (patch : Option (List Char)) : Except PyError Nat := patch.elim (.ok 0) int

theorem intPatch_short {patch : Option (List Char)} (h : ∀ p ∈ patch, p.length ≤ 4300) :
    intPatch patch = .ok ((patch.map decimalValue).getD 0) := by
  cases patch with
  | none => rfl
  | some p => exact int_short (h p rfl)

theorem intPatch_ok {patch : Option (List Char)} {n : Nat} (h : intPatch patch = .ok n) :
    n = (patch.map decimalValue).getD 0 ∧ ∀ p ∈ patch, p.length ≤ 4300 := by
  cases patch with
  | none =>
      cases h
      exact ⟨rfl, fun p hp => absurd hp (Option.not_mem_none p)⟩
  | some p =>
      obtain ⟨hn, hshort⟩ := int_ok h
      exact ⟨hn, fun q hq => Option.some.inj hq ▸ hshort⟩

namespace VersionParts

/-- Read the major, the minor and the patch. -/
def mainInts (parts : VersionParts) : Except PyError Unit := do
  let _ ← int parts.major
  let _ ← int parts.minor
  let _ ← intPatch parts.patch
  return ()

/-- Read every group, in order. -/
def ints (parts : VersionParts) : Except PyError Unit := do
  parts.mainInts
  let _ ← int parts.type_version
  return ()

theorem ints_short (h : parts.Short) : parts.ints = .ok () := by
  obtain ⟨hmajor, hminor, hpatch, hnumber⟩ := h
  rw [ints, mainInts, int_short hmajor, int_short hminor, intPatch_short hpatch, int_short hnumber]
  rfl

theorem ints_ok (h : parts.ints = .ok ()) : parts.Short := by
  unfold ints mainInts at h
  cases hmajor : int parts.major with
  | error e => simp [hmajor, bind, Except.bind] at h
  | ok major =>
      cases hminor : int parts.minor with
      | error e => simp [hmajor, hminor, bind, Except.bind] at h
      | ok minor =>
          cases hpatch : intPatch parts.patch with
          | error e => simp [hmajor, hminor, hpatch, bind, Except.bind] at h
          | ok patch =>
              cases hnumber : int parts.type_version with
              | error e => simp [hmajor, hminor, hpatch, hnumber, bind, Except.bind, pure, Except.pure] at h
              | ok number => exact ⟨(int_ok hmajor).2, (int_ok hminor).2, (intPatch_ok hpatch).2, (int_ok hnumber).2⟩

end VersionParts

theorem readMain_groups {m : Match} {g : List (String × List Char)} (hm : m.groups = parts.mainGroups ++ g)
    (hg : g.lookup "patch" = none) :
    readMain type system m = parts.mainInts.map fun _ => ⟨String.ofList m.taken, type, system, decimalValue parts.major,
      decimalValue parts.minor, (parts.patch.map decimalValue).getD 0, .number 0, none⟩ := by
  have hmajor : intGroup m "major" = int parts.major := by simp [intGroup, Match.group, hm, VersionParts.mainGroups]
  have hminor : intGroup m "minor" = int parts.minor := by
    simp [intGroup, Match.group, hm, VersionParts.mainGroups, List.lookup_cons]
  have hpatch : intGroup m "patch" = intPatch parts.patch := by
    cases hparts : parts.patch with
    | none => simp [intGroup, Match.group, hm, VersionParts.mainGroups, List.lookup_cons, hparts, hg, intPatch]
    | some patch => simp [intGroup, Match.group, hm, VersionParts.mainGroups, List.lookup_cons, hparts, intPatch]
  rw [readMain, hmajor, hminor, hpatch, VersionParts.mainInts]
  cases hmajor : int parts.major with
  | error e => rfl
  | ok major =>
      obtain rfl := (int_ok hmajor).1
      cases hminor : int parts.minor with
      | error e => rfl
      | ok minor =>
          obtain rfl := (int_ok hminor).1
          cases hpatch : intPatch parts.patch with
          | error e => rfl
          | ok patch =>
              obtain rfl := (intPatch_ok hpatch).1
              rfl

theorem readNumbered_groups {m : Match} {suffix : String}
    (hm : m.groups = parts.mainGroups ++ [("suffix", suffix.toList), ("type_version", parts.type_version)])
    (hsuffix : parts.suffix = some suffix) (hsystem : ¬ (type = .snapshot ∧ system = .old)) :
    readNumbered type system m = parts.ints.map fun _ => parts.parsed type system m.taken := by
  have hnumber : intGroup m "type_version" = int parts.type_version := by
    cases hpatch : parts.patch <;>
      simp [intGroup, Match.group, hm, VersionParts.mainGroups, List.lookup_cons, hpatch]
  have hgroup : textGroup m "suffix" = some suffix := by
    cases hpatch : parts.patch <;>
      simp [textGroup, Match.group, hm, VersionParts.mainGroups, List.lookup_cons, hpatch]
  rw [readNumbered, readMain_groups hm rfl, hnumber, hgroup, VersionParts.ints]
  cases parts.mainInts with
  | error e => rfl
  | ok u =>
      cases hn : int parts.type_version with
      | error e => rfl
      | ok number =>
          obtain rfl := (int_ok hn).1
          simp [VersionParts.parsed, hsystem, hsuffix, bind, Except.bind, pure, Except.pure, Except.map]

/-- A format reads from a match the version that the groups stand for. -/
theorem formatOf_read {m : Match} (h : VersionWord type system parts m.taken) (hm : m.groups = parts.groups type system) :
    (formatOf type system).read m = parts.ints.map fun _ => parts.parsed type system m.taken := by
  have hrelease (hsuffix : parts.suffix = none) (hnumber : parts.type_version = [])
      (hm : m.groups = parts.mainGroups ++ []) : readMain .release system m =
        parts.ints.map fun _ => parts.parsed .release system m.taken := by
    rw [readMain_groups hm rfl, VersionParts.ints, hnumber, int_short (Nat.zero_le _)]
    cases parts.mainInts with
    | error e => rfl
    | ok u => simp [VersionParts.parsed, hsuffix, hnumber, bind, Except.bind, pure, Except.pure, Except.map, decimalValue]
  generalize htaken : m.taken = text at h
  cases h with
  | old_release hmain hsuffix hnumber =>
      rw [VersionParts.groups, hsuffix] at hm
      exact htaken ▸ hrelease hsuffix hnumber hm
  | new_release hmain hsuffix hnumber =>
      rw [VersionParts.groups, hsuffix] at hm
      exact htaken ▸ hrelease hsuffix hnumber hm
  | old_prerelease hmain hparts hsuffix hnumber =>
      rw [VersionParts.groups, hparts] at hm
      exact htaken ▸ readNumbered_groups hm hparts (by decide)
  | new_prerelease hmain hparts hsuffix hnumber =>
      rw [VersionParts.groups, hparts] at hm
      exact htaken ▸ readNumbered_groups hm hparts (by decide)
  | @old_snapshot _ letter hyear hweek hpatch hsuffix hletter =>
      have hyear : intGroup m "year" = int parts.major := by simp [intGroup, Match.group, hm, VersionParts.groups]
      have hweek : intGroup m "week" = int parts.minor := by
        simp [intGroup, Match.group, hm, VersionParts.groups, List.lookup_cons]
      have hgroup : textGroup m "type_version" = some (String.ofList [letter]) := by
        simp [textGroup, Match.group, hm, VersionParts.groups, List.lookup_cons, hletter]
      have hshort : int parts.type_version = .ok (decimalValue parts.type_version) := int_short (by simp [hletter])
      rw [← htaken]
      show readOldSnapshot m = _
      rw [readOldSnapshot, hyear, hweek, hgroup, VersionParts.ints, VersionParts.mainInts, hshort, hpatch]
      cases hmajor : int parts.major with
      | error e => rfl
      | ok major =>
          obtain rfl := (int_ok hmajor).1
          cases hminor : int parts.minor with
          | error e => rfl
          | ok minor =>
              obtain rfl := (int_ok hminor).1
              simp [VersionParts.parsed, hsuffix, hpatch, hletter, bind, Except.bind, pure, Except.pure, Except.map, intPatch]
  | new_snapshot hmain hparts hnumber =>
      rw [VersionParts.groups, hparts] at hm
      exact htaken ▸ readNumbered_groups hm hparts (by decide)

/-! ## Parsing -/

theorem mem_versionFormats {f : VersionFormat} : f ∈ versionFormats ↔ ∃ type system, f = formatOf type system := by
  constructor
  · intro hf
    simp only [versionFormats, List.mem_cons, List.not_mem_nil, or_false] at hf
    rcases hf with rfl | rfl | rfl | rfl | rfl | rfl
    · exact ⟨.release, .old, rfl⟩
    · exact ⟨.release, .new, rfl⟩
    · exact ⟨.prerelease, .old, rfl⟩
    · exact ⟨.prerelease, .new, rfl⟩
    · exact ⟨.snapshot, .old, rfl⟩
    · exact ⟨.snapshot, .new, rfl⟩
  · rintro ⟨type, system, rfl⟩
    cases type <;> cases system <;> simp [versionFormats, formatOf]

/-- A match of a format is a word of it. -/
theorem match_word {m : Match} (h : (formatOf type system).regex.match text = some m) : text = m.taken ++ m.rest ∧
    AtEnd m.rest ∧ ∃ parts, VersionWord type system parts m.taken ∧ m.groups = parts.groups type system := by
  obtain ⟨htext, hmatches⟩ := Regex.matches_of_match h
  obtain ⟨hword, hrest⟩ := formatOf_matches.mp hmatches
  exact ⟨htext, hrest, hword⟩

theorem match_ne_none {rest : List Char} (h : VersionWord type system parts text) (hrest : AtEnd rest) :
    (formatOf type system).regex.match (text ++ rest) ≠ none := fun hnone =>
  Regex.match_eq_none.mp hnone text _ rest rfl (formatOf_matches.mpr ⟨⟨parts, h, rfl⟩, hrest⟩)

/-- The first format that matches reads the version, if there is one. -/
theorem parseWith_cases (formats : List VersionFormat) (version : String) :
    (∃ f ∈ formats, ∃ m, f.regex.match version.toList = some m ∧ parseWith formats version = (f.read m).map some) ∨
      (∀ f ∈ formats, f.regex.match version.toList = none) ∧ parseWith formats version = .ok none := by
  induction formats with
  | nil => exact Or.inr ⟨fun f hf => absurd hf List.not_mem_nil, rfl⟩
  | cons f fs ih =>
      unfold parseWith
      cases hmatch : f.regex.match version.toList with
      | some m => exact Or.inl ⟨f, List.mem_cons_self, m, hmatch, rfl⟩
      | none =>
          rcases ih with ⟨g, hg, m, hm, hparse⟩ | ⟨hnone, hparse⟩
          · exact Or.inl ⟨g, List.mem_cons_of_mem f hg, m, hm, hparse⟩
          · exact Or.inr ⟨List.forall_mem_cons.mpr ⟨hmatch, hnone⟩, hparse⟩

variable {formats : List VersionFormat} {version : String}

/-- A text that begins with a word and has no more than a newline behind it is read as the word. -/
theorem parseWith_word (hformats : ∀ f, f ∈ formats ↔ f ∈ versionFormats) {rest : List Char}
    (h : VersionWord type system parts text) (hrest : AtEnd rest) (hversion : version.toList = text ++ rest) :
    ∃ system', VersionWord type system' parts text ∧
      parseWith formats version = parts.ints.map fun _ => some (parts.parsed type system' text) := by
  rcases parseWith_cases formats version with ⟨f, hf, m, hmatch, hparse⟩ | ⟨hnone, _⟩
  · obtain ⟨type', system', rfl⟩ := mem_versionFormats.mp ((hformats f).mp hf)
    obtain ⟨htext, hend, parts', hword, hgroups⟩ := match_word hmatch
    obtain ⟨htaken, _⟩ := h.unique_end hword hrest hend (hversion.symm.trans htext)
    rw [formatOf_read hword hgroups] at hparse
    rw [← htaken] at hword hparse
    obtain ⟨rfl, rfl, _⟩ := h.unique hword
    refine ⟨system', hword, hparse.trans ?_⟩
    cases parts.ints <;> rfl
  · have hf := (hformats _).mpr (mem_versionFormats.mpr ⟨type, system, rfl⟩)
    exact absurd (hversion ▸ hnone _ hf) (match_ne_none h hrest)

/-- Any other text is not read. -/
theorem parseWith_other (hformats : ∀ f, f ∈ formats ↔ f ∈ versionFormats)
    (h : ∀ text rest, version.toList = text ++ rest → AtEnd rest → ¬ IsVersion text) : parseWith formats version = .ok none := by
  rcases parseWith_cases formats version with ⟨f, hf, m, hmatch, _⟩ | ⟨_, hparse⟩
  · obtain ⟨type, system, rfl⟩ := mem_versionFormats.mp ((hformats f).mp hf)
    obtain ⟨htext, hend, parts, hword, _⟩ := match_word hmatch
    exact absurd ⟨type, system, parts, hword⟩ (h _ _ htext hend)
  · exact hparse

end Backend
