import Miniverse.Core.Basic
import Miniverse.Lib.Decimal
import Miniverse.Lib.Regex

/-!
# Minecraft versions

`minecraft_service.py`: the six formats of a version, the parser that tries them in turn, and the comparison.
-/

namespace Backend

open Lib

/-! ## Formats -/

inductive VersionType where
  | release
  | prerelease
  | snapshot
deriving DecidableEq, Repr

inductive VersionSystem where
  | old
  | new
deriving DecidableEq, Repr

/-- The field is a number, but the letter for an old snapshot. -/
inductive TypeVersion where
  | number (n : Nat)
  | letter (s : String)
deriving DecidableEq, Repr

structure ParsedMinecraftVersion where
  value : String
  type : VersionType
  system : VersionSystem
  major : Nat
  minor : Nat
  patch : Nat
  type_version : TypeVersion
  suffix : Option String
deriving DecidableEq

namespace Pattern

open Regex

/-- `(?P<name>\d{min,max})` -/
def digits (name : String) (min : Nat) (max : Option Nat) : Regex := group name (rep isDecimal min max)

def patch (max : Option Nat) : Regex := opt (seq (lit ['.']) (digits "patch" 1 max))

def suffix : Regex := group "suffix" (alt (lit "pre".toList) (lit "rc".toList))

def OLD_RELEASE_FORMAT : Regex :=
  ofList [digits "major" 1 (some 2), lit ['.'], digits "minor" 1 (some 2), patch (some 2), eos]

def NEW_RELEASE_FORMAT : Regex :=
  ofList [digits "major" 2 (some 2), lit ['.'], digits "minor" 1 none, patch none, eos]

def OLD_SNAPSHOT_FORMAT : Regex :=
  ofList [digits "year" 2 (some 2), lit ['w'], digits "week" 2 (some 2),
    group "type_version" (rep (fun c => decide ('a' ≤ c ∧ c ≤ 'z')) 1 (some 1)), eos]

def NEW_SNAPSHOT_FORMAT : Regex :=
  ofList [digits "major" 2 (some 2), lit ['.'], digits "minor" 1 none, patch none, lit ['-'],
    group "suffix" (lit "snapshot".toList), lit ['-'], digits "type_version" 1 none, eos]

def OLD_PRERELEASE_FORMAT : Regex :=
  ofList [digits "major" 1 (some 2), lit ['.'], digits "minor" 1 (some 2), patch (some 2), lit ['-'],
    suffix, digits "type_version" 1 none, eos]

def NEW_PRERELEASE_FORMAT : Regex :=
  ofList [digits "major" 2 (some 2), lit ['.'], digits "minor" 1 none, patch none, lit ['-'],
    suffix, lit ['-'], digits "type_version" 1 none, eos]

/-- `^(pre|rc)(\d+)$` -/
def PRERELEASE_IDENTIFIER : Regex :=
  ofList [group "1" (alt (lit "pre".toList) (lit "rc".toList)), digits "2" 1 none, eos]

end Pattern

/-! ## Parsing -/

/-- `int(digits)` -/
def int (digits : List Char) : Except PyError Nat :=
  if 4300 < digits.length then
    .error (.valueError ("Exceeds the limit (4300 digits) for integer string conversion: value has " ++
      digits.length.repr ++ " digits; use sys.set_int_max_str_digits() to increase the limit"))
  else .ok (decimalValue digits)

/-- `int(match.group(name) or 0)` -/
def intGroup (m : Match) (name : String) : Except PyError Nat :=
  match m.group name with
  | none => .ok 0
  | some digits => int digits

/-- `match.group(name)` -/
def textGroup (m : Match) (name : String) : Option String := (m.group name).map String.ofList

/-- The fields that the formats with a major, a minor and a patch share. -/
def readMain (type : VersionType) (system : VersionSystem) (m : Match) : Except PyError ParsedMinecraftVersion := do
  let major ← intGroup m "major"
  let minor ← intGroup m "minor"
  let patch ← intGroup m "patch"
  return ⟨String.ofList m.taken, type, system, major, minor, patch, .number 0, none⟩

/-- Followed by a suffix with a number. -/
def readNumbered (type : VersionType) (system : VersionSystem) (m : Match) : Except PyError ParsedMinecraftVersion := do
  let main ← readMain type system m
  let type_version ← intGroup m "type_version"
  return { main with type_version := .number type_version, suffix := textGroup m "suffix" }

def readOldSnapshot (m : Match) : Except PyError ParsedMinecraftVersion := do
  let year ← intGroup m "year"
  let week ← intGroup m "week"
  return ⟨String.ofList m.taken, .snapshot, .old, year, week, 0, .letter ((textGroup m "type_version").getD ""), none⟩

/-- A format and what is made of a match. -/
structure VersionFormat where
  regex : Regex
  read : Match → Except PyError ParsedMinecraftVersion

def versionFormats : List VersionFormat :=
  [⟨Pattern.OLD_RELEASE_FORMAT, readMain .release .old⟩, ⟨Pattern.NEW_RELEASE_FORMAT, readMain .release .new⟩,
    ⟨Pattern.OLD_PRERELEASE_FORMAT, readNumbered .prerelease .old⟩,
    ⟨Pattern.NEW_PRERELEASE_FORMAT, readNumbered .prerelease .new⟩, ⟨Pattern.OLD_SNAPSHOT_FORMAT, readOldSnapshot⟩,
    ⟨Pattern.NEW_SNAPSHOT_FORMAT, readNumbered .snapshot .new⟩]

/-- The first format that matches. -/
def parseWith (formats : List VersionFormat) (version : String) : Except PyError (Option ParsedMinecraftVersion) :=
  match formats with
  | [] => .ok none
  | f :: fs =>
      match f.regex.match version.toList with
      | some m => (f.read m).map some
      | none => parseWith fs version

def parse_version (version : String) : Except PyError (Option ParsedMinecraftVersion) :=
  parseWith versionFormats version

/-! ## Comparing -/

/-- A `datetime`: with a time zone it is an instant, without one it compares to its like only. -/
structure DateTime where
  time : Int
  aware : Bool
deriving DecidableEq

structure MinecraftVersion where
  version : String
  date : DateTime

/-- `(a > b) - (a < b)` -/
def sign (a b : Int) : Int := (if a > b then 1 else 0) - (if a < b then 1 else 0)

def compare_main_versions (major1 minor1 patch1 major2 minor2 patch2 type_version1 type_version2 : Nat) : Int :=
  if major1 ≠ major2 then sign major1 major2
  else if minor1 ≠ minor2 then sign minor1 minor2
  else if patch1 ≠ patch2 then sign patch1 patch2
  else if type_version1 ≠ type_version2 then sign type_version1 type_version2
  else 0

/-- `re.match(r"^(pre|rc)(\d+)$", id)` -/
def matchIdentifier (id : Option String) : Except PyError (Option Match) :=
  match id with
  | none => .error .typeError
  | some id => .ok (Pattern.PRERELEASE_IDENTIFIER.match id.toList)

def compare_prerelease_identifiers (id1 id2 : Option String) : Except PyError Int :=
  if id1 = id2 then .ok 0
  else do
    match ← matchIdentifier id1, ← matchIdentifier id2 with
    | some id1_match, some id2_match =>
        let id1_rc := decide (textGroup id1_match "1" = some "rc")
        let id2_rc := decide (textGroup id2_match "1" = some "rc")
        if id1_rc ≠ id2_rc then return sign id1_rc.toInt id2_rc.toInt
        else return (← intGroup id1_match "2") - (← intGroup id2_match "2")
    | _, _ => throw .attributeError

/-- `next((v.date for v in all_versions if v.version == version), None)` -/
def publishDate (all_versions : List MinecraftVersion) (version : String) : Option DateTime :=
  (all_versions.find? fun v => decide (v.version = version)).map MinecraftVersion.date

def compareDates (a b : DateTime) : Except PyError Int :=
  if a.aware = b.aware then .ok (sign a.time b.time) else .error .typeError

def compare_by_publish_date (get_minecraft_versions : Except PyError (List MinecraftVersion)) (v1 v2 : String) :
    Except PyError (Option Int) := do
  let all_versions ← get_minecraft_versions
  match publishDate all_versions v1, publishDate all_versions v2 with
  | some v1_date, some v2_date => return some (← compareDates v1_date v2_date)
  | _, _ => return none

/-- `compare_versions`, over the parser. -/
def compare_versions_with (parse_version : String → Except PyError (Option ParsedMinecraftVersion))
    (get_minecraft_versions : Except PyError (List MinecraftVersion)) (v1 v2 : String) : Except PyError (Option Int) :=
  if v1 = v2 then .ok (some 0)
  else do
    let v1_parsed ← parse_version v1
    match ← parse_version v2, v1_parsed with
    | none, _ => return none
    | some _, none => throw .attributeError
    | some v2_parsed, some v1_parsed =>
        if v1_parsed.type = .snapshot ∧ v1_parsed.system = .old ∨ v2_parsed.type = .snapshot ∧ v2_parsed.system = .old then
          compare_by_publish_date get_minecraft_versions v1 v2
        else
          let basic_comparison := compare_main_versions v1_parsed.major v1_parsed.minor v1_parsed.patch
            v2_parsed.major v2_parsed.minor v2_parsed.patch 0 0
          if basic_comparison ≠ 0 then return some basic_comparison
          else
            match v1_parsed.type, v2_parsed.type with
            | .release, .prerelease => return some 1
            | .prerelease, .release => return some (-1)
            | .prerelease, .prerelease =>
                return some (← compare_prerelease_identifiers v1_parsed.suffix v2_parsed.suffix)
            | _, _ => compare_by_publish_date get_minecraft_versions v1 v2

def compare_versions (get_minecraft_versions : Except PyError (List MinecraftVersion)) (v1 v2 : String) :
    Except PyError (Option Int) :=
  compare_versions_with parse_version get_minecraft_versions v1 v2

end Backend
