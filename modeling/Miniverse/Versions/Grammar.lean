import Miniverse.Versions.Service

/-!
# The words of the formats

What a version looks like, without patterns: the digit groups, and the texts that are made of them.
-/

namespace Backend

open Lib

/-- So many decimal digits. -/
def Digits (min : Nat) (max : Option Nat) (cs : List Char) : Prop :=
  (∀ c ∈ cs, isDecimal c = true) ∧ min ≤ cs.length ∧ ∀ m ∈ max, cs.length ≤ m

/-- The groups of a version. A release has no digits as its `type_version`, an old snapshot has its letter. -/
structure VersionParts where
  major : List Char
  minor : List Char
  patch : Option (List Char)
  suffix : Option String
  type_version : List Char
deriving DecidableEq

namespace VersionParts

/-- `major.minor` or `major.minor.patch` -/
def mainText (parts : VersionParts) : List Char :=
  parts.major ++ '.' :: parts.minor ++ parts.patch.elim [] ('.' :: ·)

/-- The first digits as the old formats have them. -/
def OldMain (parts : VersionParts) : Prop :=
  Digits 1 (some 2) parts.major ∧ Digits 1 (some 2) parts.minor ∧ ∀ patch ∈ parts.patch, Digits 1 (some 2) patch

/-- The first digits as the new formats have them. -/
def NewMain (parts : VersionParts) : Prop :=
  Digits 2 (some 2) parts.major ∧ Digits 1 none parts.minor ∧ ∀ patch ∈ parts.patch, Digits 1 none patch

/-- `int` reads every group. -/
def Short (parts : VersionParts) : Prop :=
  parts.major.length ≤ 4300 ∧ parts.minor.length ≤ 4300 ∧ (∀ patch ∈ parts.patch, patch.length ≤ 4300) ∧
    parts.type_version.length ≤ 4300

/-- The version that the groups stand for. -/
def parsed (type : VersionType) (system : VersionSystem) (parts : VersionParts) (text : List Char) : ParsedMinecraftVersion where
  value := String.ofList text
  type := type
  system := system
  major := decimalValue parts.major
  minor := decimalValue parts.minor
  patch := (parts.patch.map decimalValue).getD 0
  type_version := if type = .snapshot ∧ system = .old then .letter (String.ofList parts.type_version)
    else .number (decimalValue parts.type_version)
  suffix := parts.suffix

end VersionParts

/-- The texts of each format. -/
inductive VersionWord : VersionType → VersionSystem → VersionParts → List Char → Prop
  | old_release {parts : VersionParts} : parts.OldMain → parts.suffix = none → parts.type_version = [] →
      VersionWord .release .old parts parts.mainText
  | new_release {parts : VersionParts} : parts.NewMain → parts.suffix = none → parts.type_version = [] →
      VersionWord .release .new parts parts.mainText
  | old_prerelease {parts : VersionParts} {suffix : String} : parts.OldMain → parts.suffix = some suffix →
      suffix = "pre" ∨ suffix = "rc" → Digits 1 none parts.type_version →
      VersionWord .prerelease .old parts (parts.mainText ++ '-' :: suffix.toList ++ parts.type_version)
  | new_prerelease {parts : VersionParts} {suffix : String} : parts.NewMain → parts.suffix = some suffix →
      suffix = "pre" ∨ suffix = "rc" → Digits 1 none parts.type_version →
      VersionWord .prerelease .new parts (parts.mainText ++ '-' :: suffix.toList ++ '-' :: parts.type_version)
  | old_snapshot {parts : VersionParts} {letter : Char} : Digits 2 (some 2) parts.major → Digits 2 (some 2) parts.minor →
      parts.patch = none → parts.suffix = none → parts.type_version = [letter] → 'a' ≤ letter → letter ≤ 'z' →
      VersionWord .snapshot .old parts (parts.major ++ 'w' :: parts.minor ++ [letter])
  | new_snapshot {parts : VersionParts} : parts.NewMain → parts.suffix = some "snapshot" →
      Digits 1 none parts.type_version →
      VersionWord .snapshot .new parts (parts.mainText ++ '-' :: "snapshot".toList ++ '-' :: parts.type_version)

/-- The text is a version. -/
def IsVersion (text : List Char) : Prop := ∃ type system parts, VersionWord type system parts text

/-- The format of a type and a numbering system. -/
def formatOf : VersionType → VersionSystem → VersionFormat
  | .release, .old => ⟨Pattern.OLD_RELEASE_FORMAT, readMain .release .old⟩
  | .release, .new => ⟨Pattern.NEW_RELEASE_FORMAT, readMain .release .new⟩
  | .prerelease, .old => ⟨Pattern.OLD_PRERELEASE_FORMAT, readNumbered .prerelease .old⟩
  | .prerelease, .new => ⟨Pattern.NEW_PRERELEASE_FORMAT, readNumbered .prerelease .new⟩
  | .snapshot, .old => ⟨Pattern.OLD_SNAPSHOT_FORMAT, readOldSnapshot⟩
  | .snapshot, .new => ⟨Pattern.NEW_SNAPSHOT_FORMAT, readNumbered .snapshot .new⟩

end Backend
