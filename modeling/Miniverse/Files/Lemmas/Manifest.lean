import Miniverse.Files.Downloads
import Miniverse.Lib.Lines

/-!
# Reading manifests

A reader takes a manifest apart into lines and each line into a checksum, a size, a location and a name that runs to the
end of the line. The location is decoded.
-/

namespace Backend

open Lib

structure ManifestEntry where
  checksum : List Char
  size : Nat
  location : List UInt8
  name : List Char
deriving DecidableEq

def readEntry (line : List Char) : Option ManifestEntry :=
  (cutField line).bind fun (checksum, line) =>
    (cutField line).bind fun (size, line) =>
      (cutField line).bind fun (location, name) =>
        (readNat size).map fun size => ⟨checksum, size, decodedPath (utf8 location), name⟩

/-- The entries of a manifest, for a reader that passes over empty lines or one that does not. -/
def readManifest (passes_empty : Bool) (content : String) : Option (List ManifestEntry) :=
  (readLines content.toList).bind fun lines => (lines.filter fun line => !(passes_empty && line.isEmpty)).mapM readEntry

variable {α : Type} (pf : Platform α)

/-- What a manifest should say about a file. -/
def fileEntry (parent : Loc) (f : Loc × α) : ManifestEntry where
  checksum := ['-']
  size := pf.size f.2
  location := utf8 ("/internal/" ++ relativePosix pf.DATA_PATH f.1).toList
  name := (relativePosix parent f.1).toList

/-- What a manifest should say about the selected paths. -/
def listedEntries (t : FileTree α) (paths : List Loc) : List ManifestEntry :=
  paths.flatMap fun path => (listedFiles t path).map (fileEntry pf path.parent)

variable {pf}

/-- What is listed for a path are the files at and below it. -/
theorem mem_listedFiles {t : FileTree α} {path q : Loc} {x : α} :
    (q, x) ∈ listedFiles t path ↔ path <+: q ∧ t.get q = some (.file x) := by
  unfold listedFiles
  rcases hget : t.get path with _ | node
  · refine iff_of_false List.not_mem_nil fun ⟨hle, hq⟩ => ?_
    exact Disk.not_below_free (FileTree.exists_eq_false.mpr hget) hq hle
  · cases node with
    | file y =>
        simp only [List.mem_singleton, Prod.mk.injEq]
        constructor
        · rintro ⟨rfl, rfl⟩
          exact ⟨List.prefix_refl q, hget⟩
        · rintro ⟨hle, hq⟩
          by_cases hne : path = q
          · subst hne
            rw [hget] at hq
            cases hq
            exact ⟨rfl, rfl⟩
          · -- below a file there is nothing
            have hdir := FileTree.isDir_above hle hne (FileTree.exists_iff.mpr ⟨_, hq⟩)
            rw [FileTree.isDir_iff, hget] at hdir
            cases hdir
    | dir =>
        simp only [List.mem_filterMap, FileTree.below, List.mem_filter, decide_eq_true_eq]
        constructor
        · rintro ⟨⟨r, n⟩, ⟨hmem, hle, _⟩, hf⟩
          cases n with
          | dir => cases hf
          | file y =>
              cases hf
              exact ⟨hle, FileTree.get_eq_some.mpr hmem⟩
        · rintro ⟨hle, hq⟩
          refine ⟨(q, .file x), ⟨FileTree.get_eq_some.mp hq, hle, ?_⟩, rfl⟩
          rintro rfl
          rw [hget] at hq
          cases hq

/-- Quoting leaves `/internal/` as it is. -/
theorem toList_quoted_path (path : Loc) :
    (quoted_path pf path).toList = quote ("/internal/" ++ relativePosix pf.DATA_PATH path).toList := by
  have hprefix : quote "/internal/".toList = "/internal/".toList := by decide +kernel
  simp only [quoted_path, String.toList_append, quote_append, String.toList_ofList, hprefix]

/-- The line of a file before its name. -/
def lineStart (pf : Platform α) (f : Loc × α) : List Char :=
  ['-'] ++ ' ' :: ((pf.size f.2).repr.toList ++ ' ' :: ((quoted_path pf f.1).toList ++ [' ']))

theorem toList_add_to_manifest (parent : Loc) (f : Loc × α) :
    (add_to_manifest pf parent f.1 (pf.size f.2)).toList = lineStart pf f ++ (relativePosix parent f.1).toList := by
  simp [add_to_manifest, lineStart]

/-- A line is read back, whatever the name is. -/
theorem readEntry_lineStart (f : Loc × α) (name : List Char) : readEntry (lineStart pf f ++ name) =
    some ⟨['-'], pf.size f.2, utf8 ("/internal/" ++ relativePosix pf.DATA_PATH f.1).toList, name⟩ := by
  have hline : lineStart pf f ++ name = ['-'] ++ ' ' :: ((pf.size f.2).repr.toList ++ ' ' ::
      ((quoted_path pf f.1).toList ++ ' ' :: name)) := by
    simp [lineStart]
  have hsize : ' ' ∉ (pf.size f.2).repr.toList := fun h => absurd (isDigit_of_mem_repr h) (by decide)
  have hspace : ' ' ∉ (quoted_path pf f.1).toList := toList_quoted_path f.1 ▸ quote_plain (by decide) _
  rw [readEntry, hline, cutField_append (by decide), Option.bind_some]
  dsimp only
  rw [cutField_append hsize, Option.bind_some]
  dsimp only
  rw [cutField_append hspace, Option.bind_some]
  dsimp only
  rw [readNat_repr, Option.map_some, toList_quoted_path, decodedPath_quote]

theorem readEntry_add_to_manifest (parent : Loc) (f : Loc × α) :
    readEntry (add_to_manifest pf parent f.1 (pf.size f.2)).toList = some (fileEntry pf parent f) := by
  rw [toList_add_to_manifest, readEntry_lineStart]
  rfl

theorem newline_not_mem_lineStart (f : Loc × α) : '\n' ∉ lineStart pf f := by
  have hsize : '\n' ∉ (pf.size f.2).repr.toList := fun h => absurd (isDigit_of_mem_repr h) (by decide)
  rw [Nat.toList_repr] at hsize
  have hquoted : '\n' ∉ quote (relativePosix pf.DATA_PATH f.1).toList := quote_plain (by decide) _
  simp [lineStart, quoted_path, hsize, hquoted]

/-- A newline of a line is one of the name. -/
theorem newline_mem_add_to_manifest (parent : Loc) (f : Loc × α) :
    '\n' ∈ (add_to_manifest pf parent f.1 (pf.size f.2)).toList ↔ '\n' ∈ (fileEntry pf parent f).name := by
  rw [toList_add_to_manifest, List.mem_append, or_iff_right (newline_not_mem_lineStart f)]
  rfl

/-- No name that is read holds a newline. -/
theorem newline_not_mem_readManifest {passes_empty : Bool} {content : String} {entries : List ManifestEntry}
    (h : readManifest passes_empty content = some entries) : ∀ e ∈ entries, '\n' ∉ e.name := by
  obtain ⟨lines, hlines, hread⟩ := Option.bind_eq_some_iff.mp h
  intro e he
  obtain ⟨line, hline, he⟩ := (mem_mapM hread).2 e he
  have hplain : '\n' ∉ line := not_mem_of_readLines hlines line (List.mem_filter.mp hline).1
  -- the name is what is left of the line after three fields
  obtain ⟨⟨_, line₁⟩, h₁, he⟩ := Option.bind_eq_some_iff.mp he
  obtain ⟨⟨_, line₂⟩, h₂, he⟩ := Option.bind_eq_some_iff.mp he
  obtain ⟨⟨_, name⟩, h₃, he⟩ := Option.bind_eq_some_iff.mp he
  obtain ⟨_, _, rfl⟩ := Option.map_eq_some_iff.mp he
  exact fun hmem => hplain (subset_of_cutField h₁ (subset_of_cutField h₂ (subset_of_cutField h₃ hmem)))

/-- The manifest with its lines as lists of characters. -/
theorem archive_content (t : FileTree α) (paths : List Loc) :
    (archive_response pf t paths).content.toList = ['\n'].intercalate ((manifest pf t paths).map String.toList) ++ ['\n'] := by
  simp [archive_response, String.toList_intercalate]

/-- Every line of a manifest is read as the entry of its file. -/
theorem mapM_readEntry_manifest (t : FileTree α) (paths : List Loc) :
    ((manifest pf t paths).map String.toList).mapM readEntry = some (listedEntries pf t paths) := by
  unfold manifest listedEntries
  induction paths with
  | nil => rfl
  | cons path paths ih =>
      have hpath : (((listedFiles t path).map fun f => add_to_manifest pf path.parent f.1 (pf.size f.2)).map
          String.toList).mapM readEntry = some ((listedFiles t path).map (fileEntry pf path.parent)) := by
        induction listedFiles t path with
        | nil => rfl
        | cons f files ih =>
            rw [List.map_cons, List.map_cons, List.mapM_cons, readEntry_add_to_manifest, ih]
            rfl
      rw [List.flatMap_cons, List.map_append, List.mapM_append, hpath, ih]
      rfl

/-! ## The location of a single file -/

theorem single_location {t : FileTree α} {path : Loc} (hfile : t.isFile path = true) :
    (download_files pf t [path]).headers.lookup "X-Accel-Redirect" = some (internal_path pf path) := by
  rw [download_files, if_pos hfile]
  rfl

/-- Nothing is quoted, so a path with a percent sign or a question mark is not read back. -/
theorem decodedPath_internal_path (path : Loc) :
    decodedPath (utf8 (internal_path pf path).toList) = utf8 ("/internal/" ++ relativePosix pf.DATA_PATH path).toList ↔
      '%' ∉ (relativePosix pf.DATA_PATH path).toList ∧ '?' ∉ (relativePosix pf.DATA_PATH path).toList := by
  have hquery : 0x3F ∈ utf8 (internal_path pf path).toList ↔ '?' ∈ (relativePosix pf.DATA_PATH path).toList := by
    rw [show (0x3F : UInt8) = UInt8.ofNat '?'.toNat from rfl, ascii_mem_utf8 (by decide)]
    simp [internal_path]
  have hescape : 0x25 ∈ utf8 (internal_path pf path).toList ↔ '%' ∈ (relativePosix pf.DATA_PATH path).toList := by
    rw [show (0x25 : UInt8) = UInt8.ofNat '%'.toNat from rfl, ascii_mem_utf8 (by decide)]
    simp [internal_path]
  exact (decodedPath_eq_self _).trans (by rw [hquery, hescape, and_comm])

end Backend
