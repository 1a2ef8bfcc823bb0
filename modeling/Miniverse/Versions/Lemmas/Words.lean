import Miniverse.Lib.Tokens
import Miniverse.Versions.Grammar
import Miniverse.Versions.Lemmas.Parse

/-!
# Formats and words

A format matches exactly its words, with or without a newline behind them, and reads the groups of the word. The text
determines the groups.
-/

namespace Backend

open Lib

/-! ## Matches -/

namespace VersionParts

def mainGroups (parts : VersionParts) : List (String × List Char) :=
  ("major", parts.major) :: ("minor", parts.minor) :: parts.patch.elim [] fun patch => [("patch", patch)]

/-- The groups of a match. -/
def groups (type : VersionType) (system : VersionSystem) (parts : VersionParts) : List (String × List Char) :=
  if type = .snapshot ∧ system = .old then
    [("year", parts.major), ("week", parts.minor), ("type_version", parts.type_version)]
  else parts.mainGroups ++ parts.suffix.elim [] fun suffix =>
    [("suffix", suffix.toList), ("type_version", parts.type_version)]

end VersionParts

/-- What `$` leaves. -/
def AtEnd (rest : List Char) : Prop := rest = [] ∨ rest = ['\n']

section
open Regex

variable {taken rest : List Char} {groups : List (String × List Char)}

theorem matches_digits {name : String} {min : Nat} {max : Option Nat} :
    (Pattern.digits name min max).Matches taken groups rest ↔ Digits min max taken ∧ groups = [(name, taken)] := by
  constructor
  · rintro ⟨inner, rfl, rfl, hall, hmin, hmax⟩
    exact ⟨⟨hall, hmin, hmax⟩, rfl⟩
  · rintro ⟨⟨hall, hmin, hmax⟩, rfl⟩
    exact ⟨[], rfl, rfl, hall, hmin, hmax⟩

theorem matches_patch {max : Option Nat} : (Pattern.patch max).Matches taken groups rest ↔
    ∃ patch : Option (List Char), (∀ p ∈ patch, Digits 1 max p) ∧ taken = patch.elim [] ('.' :: ·) ∧
      groups = patch.elim [] fun p => [("patch", p)] := by
  constructor
  · rintro (⟨t₁, t₂, g₁, g₂, rfl, rfl, ⟨rfl, rfl⟩, hmatches⟩ | ⟨rfl, rfl⟩)
    · obtain ⟨hdigits, rfl⟩ := matches_digits.mp hmatches
      exact ⟨some t₂, fun p hp => Option.some.inj hp ▸ hdigits, rfl, rfl⟩
    · exact ⟨none, fun p hp => absurd hp (Option.not_mem_none p), rfl, rfl⟩
  · rintro ⟨patch, hpatch, rfl, rfl⟩
    cases patch with
    | none => exact Or.inr ⟨rfl, rfl⟩
    | some p => exact Or.inl ⟨['.'], p, [], _, rfl, rfl, ⟨rfl, rfl⟩, matches_digits.mpr ⟨hpatch p rfl, rfl⟩⟩

/-- The major, the minor and the patch, and what comes after them. -/
theorem matches_main {min : Nat} {max max' : Option Nat} {r : Regex} :
    (seq (Pattern.digits "major" min max) (seq (lit ['.']) (seq (Pattern.digits "minor" 1 max')
      (seq (Pattern.patch max') r)))).Matches taken groups rest ↔
    ∃ parts : VersionParts, (parts.suffix = none ∧ parts.type_version = []) ∧
      (Digits min max parts.major ∧ Digits 1 max' parts.minor ∧ ∀ patch ∈ parts.patch, Digits 1 max' patch) ∧
      ∃ t g, taken = parts.mainText ++ t ∧ groups = parts.mainGroups ++ g ∧ r.Matches t g rest := by
  constructor
  · rintro ⟨major, _, _, _, rfl, rfl, h₁, _, _, _, _, rfl, rfl, ⟨rfl, rfl⟩, minor, _, _, _, rfl, rfl, h₂, _, t, _, g, rfl,
      rfl, h₃, hr⟩
    obtain ⟨hmajor, rfl⟩ := matches_digits.mp h₁
    obtain ⟨hminor, rfl⟩ := matches_digits.mp h₂
    obtain ⟨patch, hpatch, rfl, rfl⟩ := matches_patch.mp h₃
    refine ⟨⟨major, minor, patch, none, []⟩, ⟨rfl, rfl⟩, ⟨hmajor, hminor, hpatch⟩, t, g, ?_, rfl, hr⟩
    simp [VersionParts.mainText]
  · rintro ⟨⟨major, minor, patch, suffix, type_version⟩, _, ⟨hmajor, hminor, hpatch⟩, t, g, rfl, rfl, hr⟩
    refine ⟨major, '.' :: (minor ++ (patch.elim [] ('.' :: ·) ++ t)), [("major", major)], ("minor", minor) ::
      ((patch.elim [] fun p => [("patch", p)]) ++ g), ?_, rfl, matches_digits.mpr ⟨hmajor, rfl⟩, ['.'], _, [], _, rfl, rfl,
      ⟨rfl, rfl⟩, minor, _, [("minor", minor)], _, rfl, rfl, matches_digits.mpr ⟨hminor, rfl⟩, _, t, _, g, rfl, rfl,
      matches_patch.mpr ⟨patch, hpatch, rfl, rfl⟩, hr⟩
    simp [VersionParts.mainText]

theorem matches_suffix : Pattern.suffix.Matches taken groups rest ↔
    ∃ suffix : String, (suffix = "pre" ∨ suffix = "rc") ∧ taken = suffix.toList ∧ groups = [("suffix", taken)] := by
  constructor
  · rintro ⟨inner, rfl, ⟨rfl, rfl⟩ | ⟨rfl, rfl⟩⟩
    · exact ⟨"pre", Or.inl rfl, rfl, rfl⟩
    · exact ⟨"rc", Or.inr rfl, rfl, rfl⟩
  · rintro ⟨suffix, rfl | rfl, rfl, rfl⟩
    · exact ⟨[], rfl, Or.inl ⟨rfl, rfl⟩⟩
    · exact ⟨[], rfl, Or.inr ⟨rfl, rfl⟩⟩

theorem matches_number : (seq (Pattern.digits "type_version" 1 none) eos).Matches taken groups rest ↔
    Digits 1 none taken ∧ groups = [("type_version", taken)] ∧ AtEnd rest := by
  constructor
  · rintro ⟨number, _, _, _, rfl, rfl, hmatches, rfl, rfl, hrest⟩
    obtain ⟨hnumber, rfl⟩ := matches_digits.mp hmatches
    rw [List.append_nil]
    exact ⟨hnumber, rfl, hrest⟩
  · rintro ⟨hnumber, rfl, hrest⟩
    exact ⟨taken, [], _, [], (List.append_nil _).symm, rfl, matches_digits.mpr ⟨hnumber, rfl⟩, rfl, rfl, hrest⟩

/-- The pattern takes one of some suffixes. -/
def TakesSuffix (r : Regex) (P : String → Prop) : Prop :=
  ∀ taken groups rest, r.Matches taken groups rest ↔
    ∃ suffix : String, P suffix ∧ taken = suffix.toList ∧ groups = [("suffix", taken)]

theorem takesSuffix_snapshot : TakesSuffix (group "suffix" (lit "snapshot".toList)) (· = "snapshot") := by
  intro taken groups rest
  constructor
  · rintro ⟨inner, rfl, rfl, rfl⟩
    exact ⟨"snapshot", rfl, rfl, rfl⟩
  · rintro ⟨suffix, rfl, rfl, rfl⟩
    exact ⟨[], rfl, rfl, rfl⟩

theorem takesSuffix_prerelease : TakesSuffix Pattern.suffix fun suffix => suffix = "pre" ∨ suffix = "rc" :=
  fun _ _ _ => matches_suffix

/-- A dash, the suffix and the number. -/
theorem matches_numbered {r : Regex} {P : String → Prop} (hr : TakesSuffix r P) :
    (seq (lit ['-']) (seq r (seq (Pattern.digits "type_version" 1 none) eos))).Matches taken groups rest ↔
    ∃ (suffix : String) (number : List Char), P suffix ∧ Digits 1 none number ∧
      taken = '-' :: suffix.toList ++ number ∧ groups = [("suffix", suffix.toList), ("type_version", number)] ∧ AtEnd rest := by
  constructor
  · rintro ⟨_, _, _, _, rfl, rfl, ⟨rfl, rfl⟩, t, number, _, _, rfl, rfl, h₁, h₂⟩
    obtain ⟨suffix, hsuffix, rfl, rfl⟩ := (hr _ _ _).mp h₁
    obtain ⟨hnumber, rfl, hrest⟩ := matches_number.mp h₂
    exact ⟨suffix, number, hsuffix, hnumber, rfl, rfl, hrest⟩
  · rintro ⟨suffix, number, hsuffix, hnumber, rfl, rfl, hrest⟩
    exact ⟨['-'], suffix.toList ++ number, [], _, rfl, rfl, ⟨rfl, rfl⟩, suffix.toList, number, [("suffix", suffix.toList)], _,
      rfl, rfl, (hr _ _ _).mpr ⟨suffix, hsuffix, rfl, rfl⟩, matches_number.mpr ⟨hnumber, rfl, hrest⟩⟩

/-- A dash, the suffix, a dash and the number. -/
theorem matches_dashed {r : Regex} {P : String → Prop} (hr : TakesSuffix r P) :
    (seq (lit ['-']) (seq r (seq (lit ['-']) (seq (Pattern.digits "type_version" 1 none) eos)))).Matches taken groups rest ↔
    ∃ (suffix : String) (number : List Char), P suffix ∧ Digits 1 none number ∧
      taken = '-' :: suffix.toList ++ '-' :: number ∧ groups = [("suffix", suffix.toList), ("type_version", number)] ∧
      AtEnd rest := by
  constructor
  · rintro ⟨_, _, _, _, rfl, rfl, ⟨rfl, rfl⟩, t, _, _, _, rfl, rfl, h₁, _, number, _, _, rfl, rfl, ⟨rfl, rfl⟩, h₂⟩
    obtain ⟨suffix, hsuffix, rfl, rfl⟩ := (hr _ _ _).mp h₁
    obtain ⟨hnumber, rfl, hrest⟩ := matches_number.mp h₂
    exact ⟨suffix, number, hsuffix, hnumber, rfl, rfl, hrest⟩
  · rintro ⟨suffix, number, hsuffix, hnumber, rfl, rfl, hrest⟩
    exact ⟨['-'], suffix.toList ++ '-' :: number, [], _, rfl, rfl, ⟨rfl, rfl⟩, suffix.toList, '-' :: number,
      [("suffix", suffix.toList)], _, rfl, rfl, (hr _ _ _).mpr ⟨suffix, hsuffix, rfl, rfl⟩, ['-'], number, [], _, rfl, rfl,
      ⟨rfl, rfl⟩, matches_number.mpr ⟨hnumber, rfl, hrest⟩⟩

/-- The year, the week and the letter. -/
theorem matches_old_snapshot : Pattern.OLD_SNAPSHOT_FORMAT.Matches taken groups rest ↔
    ∃ (year week : List Char) (letter : Char), Digits 2 (some 2) year ∧ Digits 2 (some 2) week ∧ 'a' ≤ letter ∧ letter ≤ 'z' ∧
      taken = year ++ 'w' :: week ++ [letter] ∧
      groups = [("year", year), ("week", week), ("type_version", [letter])] ∧ AtEnd rest := by
  constructor
  · rintro ⟨year, _, _, _, rfl, rfl, h₁, _, _, _, _, rfl, rfl, ⟨rfl, rfl⟩, week, _, _, _, rfl, rfl, h₂, text, _, _, _, rfl,
      rfl, ⟨_, rfl, rfl, hall, hmin, hmax⟩, rfl, rfl, hrest⟩
    obtain ⟨hyear, rfl⟩ := matches_digits.mp h₁
    obtain ⟨hweek, rfl⟩ := matches_digits.mp h₂
    obtain ⟨letter, rfl⟩ := List.length_eq_one_iff.mp (Nat.le_antisymm (hmax 1 rfl) hmin)
    obtain ⟨hlow, hhigh⟩ := of_decide_eq_true (hall letter List.mem_cons_self)
    exact ⟨year, week, letter, hyear, hweek, hlow, hhigh, by simp, rfl, hrest⟩
  · rintro ⟨year, week, letter, hyear, hweek, hlow, hhigh, rfl, rfl, hrest⟩
    have hclass : ∀ c ∈ [letter], decide ('a' ≤ c ∧ c ≤ 'z') = true := by simpa using ⟨hlow, hhigh⟩
    refine ⟨year, 'w' :: (week ++ [letter]), [("year", year)], _, by simp, rfl, matches_digits.mpr ⟨hyear, rfl⟩, ['w'], _, [], _,
      rfl, rfl, ⟨rfl, rfl⟩, week, [letter], [("week", week)], _, rfl, rfl, matches_digits.mpr ⟨hweek, rfl⟩, [letter], [],
      [("type_version", [letter])], [], rfl, rfl, ⟨[], rfl, rfl, hclass, le_refl 1, fun m hm => ?_⟩, rfl, rfl, hrest⟩
    exact Option.some.inj hm ▸ le_refl 1

/-- A format matches its words, and its groups are those of the word. -/
theorem formatOf_matches {type : VersionType} {system : VersionSystem} :
    (formatOf type system).regex.Matches taken groups rest ↔
      (∃ parts, VersionWord type system parts taken ∧ groups = parts.groups type system) ∧ AtEnd rest := by
  cases type with
  | release =>
      cases system with
      | old =>
          refine matches_main.trans ⟨?_, ?_⟩
          · rintro ⟨parts, ⟨hsuffix, hnumber⟩, hmain, t, g, rfl, rfl, rfl, rfl, hrest⟩
            rw [List.append_nil]
            exact ⟨⟨parts, .old_release hmain hsuffix hnumber, by simp [VersionParts.groups, hsuffix]⟩, hrest⟩
          · rintro ⟨⟨parts, hword, rfl⟩, hrest⟩
            cases hword with
            | old_release hmain hsuffix hnumber =>
                exact ⟨parts, ⟨hsuffix, hnumber⟩, hmain, [], [], (List.append_nil _).symm,
                  by simp [VersionParts.groups, hsuffix], rfl, rfl, hrest⟩
      | new =>
          refine matches_main.trans ⟨?_, ?_⟩
          · rintro ⟨parts, ⟨hsuffix, hnumber⟩, hmain, t, g, rfl, rfl, rfl, rfl, hrest⟩
            rw [List.append_nil]
            exact ⟨⟨parts, .new_release hmain hsuffix hnumber, by simp [VersionParts.groups, hsuffix]⟩, hrest⟩
          · rintro ⟨⟨parts, hword, rfl⟩, hrest⟩
            cases hword with
            | new_release hmain hsuffix hnumber =>
                exact ⟨parts, ⟨hsuffix, hnumber⟩, hmain, [], [], (List.append_nil _).symm,
                  by simp [VersionParts.groups, hsuffix], rfl, rfl, hrest⟩
  | prerelease =>
      cases system with
      | old =>
          refine matches_main.trans ⟨?_, ?_⟩
          · rintro ⟨parts, _, hmain, t, g, rfl, rfl, htail⟩
            obtain ⟨suffix, number, hsuffix, hnumber, rfl, rfl, hrest⟩ := (matches_numbered takesSuffix_prerelease).mp htail
            refine ⟨⟨{ parts with suffix := some suffix, type_version := number }, ?_, rfl⟩, hrest⟩
            rw [← List.append_assoc]
            exact @VersionWord.old_prerelease { parts with suffix := some suffix, type_version := number } suffix hmain rfl hsuffix hnumber
          · rintro ⟨⟨parts, hword, rfl⟩, hrest⟩
            cases hword with
            | @old_prerelease _ suffix hmain hparts hsuffix hnumber =>
                refine ⟨{ parts with suffix := none, type_version := [] }, ⟨rfl, rfl⟩, hmain, '-' :: suffix.toList ++ parts.type_version,
                  [("suffix", suffix.toList), ("type_version", parts.type_version)], ?_, ?_, ?_⟩
                · exact List.append_assoc _ _ _
                · simp [VersionParts.groups, hparts, VersionParts.mainGroups]
                · exact (matches_numbered takesSuffix_prerelease).mpr ⟨suffix, _, hsuffix, hnumber, rfl, rfl, hrest⟩
      | new =>
          refine matches_main.trans ⟨?_, ?_⟩
          · rintro ⟨parts, _, hmain, t, g, rfl, rfl, htail⟩
            obtain ⟨suffix, number, hsuffix, hnumber, rfl, rfl, hrest⟩ := (matches_dashed takesSuffix_prerelease).mp htail
            refine ⟨⟨{ parts with suffix := some suffix, type_version := number }, ?_, rfl⟩, hrest⟩
            rw [← List.append_assoc]
            exact @VersionWord.new_prerelease { parts with suffix := some suffix, type_version := number } suffix hmain rfl hsuffix hnumber
          · rintro ⟨⟨parts, hword, rfl⟩, hrest⟩
            cases hword with
            | @new_prerelease _ suffix hmain hparts hsuffix hnumber =>
                refine ⟨{ parts with suffix := none, type_version := [] }, ⟨rfl, rfl⟩, hmain,
                  '-' :: suffix.toList ++ '-' :: parts.type_version,
                  [("suffix", suffix.toList), ("type_version", parts.type_version)], ?_, ?_, ?_⟩
                · exact List.append_assoc _ _ _
                · simp [VersionParts.groups, hparts, VersionParts.mainGroups]
                · exact (matches_dashed takesSuffix_prerelease).mpr ⟨suffix, _, hsuffix, hnumber, rfl, rfl, hrest⟩
  | snapshot =>
      cases system with
      | old =>
          refine matches_old_snapshot.trans ⟨?_, ?_⟩
          · rintro ⟨year, week, letter, hyear, hweek, hlow, hhigh, rfl, rfl, hrest⟩
            exact ⟨⟨⟨year, week, none, none, [letter]⟩, .old_snapshot hyear hweek rfl rfl rfl hlow hhigh, rfl⟩, hrest⟩
          · rintro ⟨⟨parts, hword, rfl⟩, hrest⟩
            cases hword with
            | @old_snapshot _ letter hyear hweek hpatch hsuffix hletter hlow hhigh =>
                exact ⟨parts.major, parts.minor, letter, hyear, hweek, hlow, hhigh, rfl,
                  by simp [VersionParts.groups, hletter], hrest⟩
      | new =>
          refine matches_main.trans ⟨?_, ?_⟩
          · rintro ⟨parts, _, hmain, t, g, rfl, rfl, htail⟩
            obtain ⟨_, number, rfl, hnumber, rfl, rfl, hrest⟩ := (matches_dashed takesSuffix_snapshot).mp htail
            refine ⟨⟨{ parts with suffix := some "snapshot", type_version := number }, ?_, rfl⟩, hrest⟩
            rw [← List.append_assoc]
            exact @VersionWord.new_snapshot { parts with suffix := some "snapshot", type_version := number } hmain rfl hnumber
          · rintro ⟨⟨parts, hword, rfl⟩, hrest⟩
            cases hword with
            | new_snapshot hmain hparts hnumber =>
                refine ⟨{ parts with suffix := none, type_version := [] }, ⟨rfl, rfl⟩, hmain,
                  '-' :: "snapshot".toList ++ '-' :: parts.type_version,
                  [("suffix", "snapshot".toList), ("type_version", parts.type_version)], ?_, ?_, ?_⟩
                · exact List.append_assoc _ _ _
                · simp [VersionParts.groups, hparts, VersionParts.mainGroups]
                · exact (matches_dashed takesSuffix_snapshot).mpr ⟨"snapshot", _, rfl, hnumber, rfl, rfl, hrest⟩

end

end Backend
