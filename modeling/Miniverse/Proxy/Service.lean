import Miniverse.Docker.Service

/-!
# The router in front of the miniverses

The functions of `proxy_service.py` that write the routes.
-/

namespace Backend

open Lib

variable {α : Type} (env : Env α)

/-- The address of a miniverse behind the router. -/
def router_address (m : Miniverse) : String := "miniverse-" ++ m.id.str ++ ":25565"

/-- An entry of a dictionary: a key that is there keeps its place and gets the new value. -/
def setItem (mappings : List (String × String)) (key value : String) : List (String × String) :=
  if mappings.any fun e => decide (e.1 = key) then mappings.map fun e => if e.1 = key then (key, value) else e
  else mappings ++ [(key, value)]

def generate_router_routes (miniverse_list : List Miniverse) : List (String × String) :=
  miniverse_list.foldl (fun mappings m => setItem mappings (m.subdomain ++ "." ++ env.DOMAIN_NAME) (router_address m)) []

def routes_path : Loc := env.DATA_PATH ++ ["proxy", "routes.json"]

def update_proxy_config : Act α Unit := do
  let miniverse_list ← query (·.miniverses)
  onDisk (Disk.mkdirs (routes_path env).parent)
  onDisk (Disk.write (routes_path env) (env.routes_json (generate_router_routes env miniverse_list)))
  (← get_container_by_name env "miniverse-router").elim (pure ()) fun router_container =>
    kill_container env router_container.id

end Backend
