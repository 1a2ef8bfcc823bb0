import Miniverse.Core.Basic

/-!
# The parts of `os`, `pathlib` and `shutil` that copy and move
-/

namespace Backend

open Lib

variable {α : Type}

/-- A computation on the files. -/
abbrev Fs (α β : Type) := Eff (Disk α) PyError β

namespace Fs

/-- The location of a path that the system looks up. -/
def locate (cwd : Loc) (path : PurePath) : Fs α Loc := do
  Eff.raiseIf path.hasNul (.valueError "embedded null byte")
  Eff.getOr (← Disk.look (·.locate cwd path)) (.os .fileNotFound)

/-- `path.unlink()` -/
def unlinkPath (cwd : Loc) (path : PurePath) : Fs α Unit := do
  Disk.unlink (← locate cwd path)

/-- `path.rename(target)` -/
def renamePath (cwd : Loc) (path : PurePath) (target : Loc) : Fs α Unit := do
  Disk.rename (← locate cwd path) target

/-- `open(path, "wb")` and writing the content. -/
def writePath (cwd : Loc) (path : PurePath) (content : α) : Fs α Unit := do
  Disk.write (← locate cwd path) content

/-- `os.makedirs(name)`, of the location whose names from the last to the first are given. -/
def makedirsRev : List String → Fs α Unit
  | [] => Disk.mkdir []
  | c :: up => do
      if !(← Disk.look (·.exists up.reverse)) then
        (makedirsRev up).attempt fun e => if e = .os .fileExists then pure () else Eff.raise e
      Disk.mkdir (c :: up).reverse

def makedirs (p : Loc) : Fs α Unit := makedirsRev p.reverse

/-- `shutil.copy2(src, dst)` -/
def copy2 (src dst : Loc) : Fs α Unit := do
  let dst := if ← Disk.look (·.isDir dst) then dst ++ [src.name] else dst
  Eff.raiseIf (src = dst) (.os .sameFile)
  let content ← Disk.readFile src
  Disk.write dst content

/-- The names in a directory and whether each is a directory itself. -/
def scandir (p : Loc) : Fs α (List (String × Bool)) := do
  if ← Disk.look (·.isDir p) then
    Disk.look fun t => (t.children p).map fun n => (n, t.isDir (p ++ [n]))
  else if ← Disk.look (·.exists p) then Eff.raise (.os .notADirectory)
  else Eff.raise (.os (← Disk.look (·.lookupError p)))

/-- Copy the listed entries in turn. The error of an entry is put aside, the others are still copied. -/
def copyEntries (copy : String × Bool → Fs α Unit) : List (String × Bool) → Fs α Bool
  | [] => pure false
  | e :: es => do
      let failed ← (do copy e; pure false : Fs α Bool).attempt fun err =>
        if err.isOSError then pure true else Eff.raise err
      let rest ← copyEntries copy es
      pure (failed || rest)

/-- `shutil.copytree(src, dst)`, with room for `depth` nested calls. -/
def copytree : Nat → Loc → Loc → Fs α Unit
  | 0, _, _ => Eff.raise .recursionError
  | depth + 1, src, dst => do
      let entries ← scandir src
      makedirs dst
      let failed ← copyEntries (fun e =>
        if e.2 then copytree depth (src ++ [e.1]) (dst ++ [e.1])
        else copy2 (src ++ [e.1]) (dst ++ [e.1])) entries
      Eff.raiseIf failed .shutilError

end Fs

end Backend
