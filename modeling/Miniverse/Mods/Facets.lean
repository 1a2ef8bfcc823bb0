import Miniverse.Mods.Service

/-!
# The parameters of the requests to Modrinth

`dumps_values`, `build_facets` and the parameters of `list_project_versions`, with Python's texts of lists of strings.
-/

namespace Backend

variable {α : Type}

/-! ## Python's texts of values -/

/-- Which characters are printed as they are; of the first 128 those from the space on, without the last one. -/
structure Printing where
  isPrintable : Char → Bool
  ascii : ∀ c : Char, c.toNat < 128 → (isPrintable c = true ↔ 32 ≤ c.toNat ∧ c.toNat < 127)

/-- The lowest hexadecimal digits of a number. -/
def hexNumber : Nat → Nat → List Char
  | 0, _ => []
  | width + 1, n => hexNumber width (n / 16) ++ [Nat.digitChar (n % 16)]

variable (printing : Printing)

/-- A character of a string between two quotes. -/
def reprChar (quote c : Char) : List Char :=
  if c = quote ∨ c = '\\' then ['\\', c]
  else if c = '\t' then ['\\', 't']
  else if c = '\n' then ['\\', 'n']
  else if c = '\r' then ['\\', 'r']
  else if printing.isPrintable c then [c]
  else if c.toNat ≤ 0xFF then '\\' :: 'x' :: hexNumber 2 c.toNat
  else if c.toNat ≤ 0xFFFF then '\\' :: 'u' :: hexNumber 4 c.toNat
  else '\\' :: 'U' :: hexNumber 8 c.toNat

/-- Double quotes are taken only for a string with single ones and without double ones. -/
def reprQuote (s : String) : Char := if '\'' ∈ s.toList ∧ '"' ∉ s.toList then '"' else '\''

/-- `repr(s)` -/
def reprStr (s : String) : List Char :=
  reprQuote s :: (s.toList.flatMap (reprChar printing (reprQuote s)) ++ [reprQuote s])

/-- `str(values)`, from the texts of the elements. -/
def strList (repr : α → List Char) (values : List α) : List Char :=
  '[' :: ([',', ' '].intercalate (values.map repr) ++ [']'])

/-! ## Parameters -/

/-- `text.replace("'", '"').replace("\\", "")` -/
def replaceQuotes (text : List Char) : List Char :=
  (text.map fun c => if c = '\'' then '"' else c).filter fun c => decide (c ≠ '\\')

def dumps_values (repr : α → List Char) (values : List α) : String := String.ofList (replaceQuotes (strList repr values))

/-- A single value counts as a list of one. -/
def build_or_facets (key : String) (values : String ⊕ List String) : List String :=
  (values.elim (fun v => [v]) id).map fun v => key ++ ":" ++ v

inductive ModrinthProjectType where
  | mod
  | modpack
  | resourcepack
  | shader
  | world

def ModrinthProjectType.value : ModrinthProjectType → String
  | mod => "mod"
  | modpack => "modpack"
  | resourcepack => "resourcepack"
  | shader => "shader"
  | world => "world"

inductive ModSideSupport where
  | required
  | optional
  | unsupported
  | unknown

def ModSideSupport.value : ModSideSupport → String
  | required => "required"
  | optional => "optional"
  | unsupported => "unsupported"
  | unknown => "unknown"

structure ModrinthSearchFacets where
  project_type : Option ModrinthProjectType
  categories : Option (List String)
  versions : Option (List String)
  client_side : Option ModSideSupport
  server_side : Option ModSideSupport

/-- The list that `build_facets` collects. -/
def ModrinthSearchFacets.collect (facets : ModrinthSearchFacets) : List (List String) :=
  (facets.project_type.map fun t => build_or_facets "project_type" (.inl t.value)).toList ++
    (facets.categories.map fun vs => build_or_facets "categories" (.inr vs)).toList ++
    (facets.versions.map fun vs => build_or_facets "versions" (.inr vs)).toList ++
    (facets.client_side.map fun s => build_or_facets "client_side" (.inl s.value)).toList ++
    (facets.server_side.map fun s => build_or_facets "server_side" (.inl s.value)).toList

def build_facets (facets : ModrinthSearchFacets) : String := dumps_values (strList (reprStr printing)) facets.collect

/-- `loader.value.lower()` -/
def MiniverseType.lower : MiniverseType → String
  | vanilla => "vanilla"
  | paper => "paper"
  | fabric => "fabric"
  | forge => "forge"
  | neo_forge => "neoforge"

/-- `loaders` and `game_versions` of a request of `list_project_versions`. -/
def project_versions_params (loader : Option MiniverseType) (mc_version : Option String) : Option String × Option String :=
  (loader.map fun loader => dumps_values (reprStr printing) [loader.lower],
    (mc_version.filter fun v => decide (v ≠ "")).map fun mc_version => dumps_values (reprStr printing) [mc_version])

end Backend
