import Miniverse.Calls.Service
import Miniverse.Mods.Lemmas.Rows

/-!
# When the file of a mod is replaced

A download returns where the version has a file, the request for it is answered, and the file can be written.
-/

namespace Backend

open Lib

variable {α β : Type} {env : Env α} {id : Uuid4} {w w' : World α} {mod : Mod} {project : ModrinthProject}
  {version : ModrinthProjectVersion} {file_name : String}

end Backend
