import Miniverse.Calls.Lemmas.Addresses
import Miniverse.Miniverses.Lemmas.Answers

/-!
# The file of the routes

No call but those that write the routes changes the file of the routes. The files of the mods cannot be this file, since
their names end with `.jar`.
-/

namespace Backend

open Lib

variable {α β : Type} {env : Env α} {w w' : World α} {m : Miniverse} {id : Uuid4}

/-! ## Names of mod files -/

def IsJar (file_name : String) : Prop := ∃ base : List Char, file_name.toList = base ++ ".jar".toList

theorem isJar_mod_file_name (project : ModrinthProject) (version : ModrinthProjectVersion) :
    IsJar (mod_file_name project version ".jar") :=
  ⟨(project.slug ++ "-" ++ version.version_number ++ "-" ++ version.id).toList, String.toList_append⟩

/-- The file of a mod is called by a name that ends with `.jar`. -/
theorem mod_file_loc_jar (env : Env α) (id : Uuid4) {file_name : String} (h : IsJar file_name) :
    ∃ p c, mod_file_loc env id file_name = p ++ [c] ∧ ".jar".toList <:+ c.toList := by
  obtain ⟨base, hbase⟩ := h
  obtain ⟨cs, c, hcs, hc⟩ := components_append (t := ".jar".toList) (by decide) (by decide) base
  have htail : ∃ ds, (mod_file_path env id file_name).tail = ds ++ [c] := by
    have hparse : (PurePath.parse file_name).tail = cs ++ [c] := by rw [← hcs, ← hbase]; rfl
    unfold mod_file_path PurePath.join
    split
    · refine ⟨mods_path env id ++ cs, ?_⟩
      show mods_path env id ++ (PurePath.parse file_name).tail = mods_path env id ++ cs ++ [c]
      rw [hparse, List.append_assoc]
    · exact ⟨cs, hparse⟩
  obtain ⟨ds, hds⟩ := htail
  have hne : c ≠ ".." := by
    rintro rfl
    exact absurd hc.length_le (by decide)
  refine ⟨resolveFrom [] ds, c, ?_, hc⟩
  rw [mod_file_loc, hds, resolveFrom_append, resolveFrom_cons, resolveStep, if_neg hne]
  rfl

/-! ## The location of the routes -/

theorem not_jar_routes_path (env : Env α) (id : Uuid4) {file_name : String} (h : IsJar file_name) :
    mod_file_loc env id file_name ≠ routes_path env := by
  intro heq
  obtain ⟨p, c, hp, hc⟩ := mod_file_loc_jar env id h
  have hroutes : routes_path env = (env.DATA_PATH ++ ["proxy"]) ++ ["routes.json"] := by simp [routes_path]
  rw [hp, hroutes] at heq
  have hname : c = "routes.json" := (List.cons.inj (List.append_inj' heq rfl).2).1
  rw [hname] at hc
  exact absurd hc (by decide)

/-- The routes do not lie in the directory of a miniverse, nor that directory in theirs. -/
theorem routes_path_apart {p : Loc} (h : get_miniverse_path env.toPlatform id <+: p) : ¬ routes_path env <+: p := by
  intro hroutes
  obtain ⟨t, ht⟩ := h
  obtain ⟨u, hu⟩ := hroutes
  rw [← ht, get_miniverse_path, routes_path, List.append_assoc, List.append_assoc] at hu
  have := List.append_cancel_left hu
  simp at this

/-! ## Calls that do not write the routes -/

/-- While all mod files have the suffix, the file of the routes stays as it is. -/
def RoutesKept (env : Env α) : World α → World α → Prop := fun w w' =>
  (∀ r ∈ w.db.mods, IsJar r.file_name) →
    (∀ r ∈ w'.db.mods, IsJar r.file_name) ∧ w'.disk.tree.get (routes_path env) = w.disk.tree.get (routes_path env)

instance : Calm (RoutesKept env) where
  refl _ h := ⟨h, rfl⟩
  trans _ _ _ h₁ h₂ h := ⟨(h₂ (h₁ h).1).1, (h₂ (h₁ h).1).2.trans (h₁ h).2⟩
  tick _ _ h := ⟨h, rfl⟩
  events _ _ h := ⟨h, rfl⟩
  containers _ _ h := ⟨h, rfl⟩

theorem routesKept_onDisk {f : Fs α β} (h : f.Within (Disk.SameOff fun q => q ≠ routes_path env)) :
    (onDisk f : Act α β).Within (RoutesKept env) :=
  h.zoom fun _ _ hsame hjar => ⟨hjar, hsame _ (not_not_intro rfl)⟩

theorem routesKept_mkdirs (env : Env α) {p : Loc} (h : get_miniverse_path env.toPlatform id <+: p) :
    (onDisk (Disk.mkdirs p) : Act α Unit).Within (RoutesKept env) := by
  refine routesKept_onDisk (Disk.sameOff_mkdirs fun q hq heq => routes_path_apart h ?_)
  exact heq ▸ hq

theorem miniverse_path_begins (env : Env α) (id : Uuid4) {p : Loc} (h : miniverse_data_path env.toPlatform id <+: p) :
    get_miniverse_path env.toPlatform id <+: p :=
  (List.prefix_append _ _).trans h

theorem routesKept_object (env : Env α) (id : Uuid4) : AllowsObject (RoutesKept env) id fun _ => True where
  save _ _ h := ⟨h, rfl⟩
  control _ _ h := ⟨h, rfl⟩
  state _ _ _ := trivial

theorem routesKept_data (env : Env α) (id : Uuid4) : AllowsData env (RoutesKept env) id IsJar where
  mkdirs := routesKept_mkdirs env (miniverse_path_begins env id (List.prefix_append _ _))
  write name x hname := by
    refine routesKept_onDisk (Eff.Within.bind_returns (Fs.within_locate _ _) (returns_locate_mod_file env id name) ?_)
    rintro _ rfl
    exact Disk.sameOff_write (not_jar_routes_path env id hname)
  unlink name hname := by
    refine routesKept_onDisk (Eff.Within.bind_returns (Fs.within_locate _ _) (returns_locate_mod_file env id name) ?_)
    rintro _ rfl
    exact Disk.sameOff_unlink (not_jar_routes_path env id hname)
  answers _ _ := isJar_mod_file_name _ _
  rows h hjar := h hjar hjar
  save_mod _ _ _ _ hname hjar := by
    refine ⟨fun r hr => ?_, rfl⟩
    obtain ⟨r', hr', rfl⟩ := List.mem_map.mp hr
    split
    · exact hname
    · exact hjar r' hr'
  add_mod _ hname _ hjar := by
    refine ⟨fun r hr => ?_, rfl⟩
    rcases List.mem_append.mp hr with hr | hr
    · exact hjar r hr
    · rw [List.mem_singleton.mp hr]
      exact hname
  mkdirs_below p hp := routesKept_mkdirs env (miniverse_path_begins env id hp)
  write_below p x hp := by
    refine routesKept_onDisk (Disk.sameOff_write fun heq => ?_)
    exact routes_path_apart (miniverse_path_begins env id hp) (heq ▸ List.prefix_refl _)

/-- The rows, and the file of the routes. -/
def World.routed (env : Env α) (w : World α) : Database × Option (Node α) := (w.db, w.disk.tree.get (routes_path env))

instance : Calm (Same (World.routed env)) where
  refl _ := rfl
  trans _ _ _ h₁ h₂ := h₂.trans h₁
  tick _ _ := rfl
  events _ _ := rfl
  containers _ _ := rfl

theorem same_routed_remove_volume (env : Env α) (id : Uuid4) : (remove_volume env id).Within (Same (World.routed env)) := by
  have hdisk : (do
      let volume_base_path := get_miniverse_path env.toPlatform id
      Eff.when (← Disk.look (·.isDir volume_base_path)) (Disk.rmtree volume_base_path) : Fs α Unit).Within
        (Disk.SameOff fun q => q ≠ routes_path env) := by
    refine Eff.Within.bind (Disk.within_look _) fun _ => Eff.Within.when fun _ => ?_
    exact Disk.sameOff_rmtree fun q hq heq => routes_path_apart hq (heq ▸ List.prefix_refl _)
  exact hdisk.zoom fun _ _ hsame => Prod.ext rfl (hsame _ (not_not_intro rfl))

/-! ## Writing the routes -/

/-- The file of the routes holds the routes of the rows. -/
def InStep (env : Env α) (w : World α) : Prop :=
  w.disk.tree.get (routes_path env) = some (.file (env.routes_json (generate_router_routes env w.db.miniverses)))

/-- The routes depend on the addresses. -/
theorem routes_of_addresses {ms ms' : List Miniverse}
    (h : ms.map (fun r => (r.id, r.subdomain)) = ms'.map fun r => (r.id, r.subdomain)) :
    generate_router_routes env ms = generate_router_routes env ms' := by
  have key (ms : List Miniverse) : generate_router_routes env ms =
      (ms.map fun r => (r.id, r.subdomain)).foldl
        (fun mappings a => setItem mappings (a.2 ++ "." ++ env.DOMAIN_NAME) ("miniverse-" ++ a.1.str ++ ":25565")) [] := by
    rw [List.foldl_map]
    rfl
  rw [key ms, key ms', h]

theorem InStep.of_same (h : InStep env w) (haddresses : w'.db.addresses = w.db.addresses)
    (hfile : w'.disk.tree.get (routes_path env) = w.disk.tree.get (routes_path env)) : InStep env w' := by
  unfold InStep at h ⊢
  rw [hfile, h, routes_of_addresses haddresses]

theorem routes_path_parent (env : Env α) : (routes_path env).parent <+: routes_path env ∧
    (routes_path env).parent ≠ routes_path env := by
  have hroutes : routes_path env = (env.DATA_PATH ++ ["proxy"]) ++ ["routes.json"] := by simp [routes_path]
  rw [hroutes, Loc.parent_concat]
  refine ⟨List.prefix_append _ _, fun h => ?_⟩
  have := congrArg List.length h
  simp at this

/-- Where there was a file of the routes, writing them puts it in step. -/
theorem update_proxy_config_inStep {x : α} (h : w.disk.tree.get (routes_path env) = some (.file x)) :
    InStep env (update_proxy_config env w).2 := by
  obtain ⟨hparent, hne⟩ := routes_path_parent env
  have hfile : w.disk.tree.isFile (routes_path env) = true := FileTree.isFile_iff.mpr ⟨x, h⟩
  have hdir := FileTree.isDir_above hparent hne (FileTree.exists_of_isFile hfile)
  obtain ⟨d, hd, _⟩ := Disk.mkdirs_succeeds (ε := PyError) (p := (routes_path env).parent) (d := w.disk)
    (FileTree.isName_of_exists (FileTree.exists_of_isDir hdir)) fun q hq => FileTree.isFile_eq_false_above hq hdir
  have hfile' : d.tree.isFile (routes_path env) = true := by
    have hmade := Disk.made_mkdirs (ε := PyError) (routes_path env).parent w.disk
    rw [hd] at hmade
    rw [hmade.2.1]
    exact hfile
  obtain ⟨d', hd', hget⟩ := Disk.write_existing (ε := PyError)
    (env.routes_json (generate_router_routes env w.db.miniverses)) hfile'
  unfold update_proxy_config
  rw [query, Eff.read_bind_run, Eff.bind_run_ok (onDisk_run hd),
    Eff.bind_run_ok (onDisk_run (w := { w with disk := d }) hd')]
  have hrest : (do
      (← get_container_by_name env "miniverse-router").elim (pure ()) fun router_container =>
        kill_container env router_container.id : Act α Unit).Within (Same World.store) :=
    (within_get_container_by_name _).bind fun _ => Eff.Within.elim (Eff.Within.pure _) fun _ _ => within_kill_container _
  have hsame := hrest { w with disk := d' }
  have hdb := congrArg Prod.fst hsame
  have hdisk := congrArg Prod.snd hsame
  dsimp only [World.store] at hdb hdisk
  unfold InStep
  rw [hdisk, hdb, hget, if_pos rfl]

/-! ## Calls -/

/-- The file of the routes is in step, in a state with the rows of mods that the calls lead to. -/
structure Routed (env : Env α) (w : World α) : Prop where
  jars : ∀ r ∈ w.db.mods, IsJar r.file_name
  inStep : InStep env w

theorem Routed.kept (h : Routed env w) (haddresses : w'.db.addresses = w.db.addresses) (hkept : RoutesKept env w w') :
    Routed env w' :=
  ⟨(hkept h.jars).1, h.inStep.of_same haddresses (hkept h.jars).2⟩

theorem Routed.of_store (h : Routed env w) (hstore : w'.store = w.store) : Routed env w' := by
  obtain ⟨hdb, hdisk⟩ : w'.db = w.db ∧ w'.disk = w.disk := Prod.ext_iff.mp hstore
  exact ⟨hdb ▸ h.jars, h.inStep.of_same (by rw [hdb]) (by rw [hdisk])⟩

theorem same_db_update_proxy_config (env : Env α) : (update_proxy_config env).Within (Same World.db) :=
  (within_query _).bind fun _ => Eff.Within.bind (fun _ => rfl) fun _ => Eff.Within.bind (fun _ => rfl) fun _ =>
    (within_get_container_by_name _).bind fun _ => Eff.Within.elim (Eff.Within.pure _) fun _ _ => within_kill_container _

theorem update_proxy_config_routed (hjars : ∀ r ∈ w.db.mods, IsJar r.file_name) {x : α}
    (hfile : w.disk.tree.get (routes_path env) = some (.file x)) : Routed env (update_proxy_config env w).2 :=
  ⟨(same_db_update_proxy_config env w).symm ▸ hjars, update_proxy_config_inStep hfile⟩

/-- What comes after the routes were written leaves the rows and the files alone. -/
theorem routed_after_update {k : Unit → Act α β} (hk : ∀ a, (k a).Within (Same World.store))
    (hjars : ∀ r ∈ w.db.mods, IsJar r.file_name) {x : α} (hfile : w.disk.tree.get (routes_path env) = some (.file x)) :
    Routed env ((update_proxy_config env >>= k) w).2 := by
  have hrouted := update_proxy_config_routed hjars hfile
  rw [Eff.bind_run]
  rcases hrun : update_proxy_config env w with ⟨e | a, w'⟩
  · rw [hrun] at hrouted
    exact hrouted
  · rw [hrun] at hrouted
    exact hrouted.of_store (hk a w')

/-- The start of a new miniverse is answered, once its controller was chosen. -/
structure SetUpAnswered (env : Env α) (w : World α) (data : MiniverseCreate) : Prop extends RegistersRow env w data where
  started : ∃ n, ControlledAt env w (env.uuid4 w.tick) data.mc_version (w.tick + 4) n ∧
    StartsAt env w.containers (container_name_of (env.uuid4 w.tick)) n

/-- A set-up whose calls are answered writes the routes. -/
theorem set_up_routed {n : Nat} (hjars : ∀ r ∈ w.db.mods, IsJar r.file_name) {x : α}
    (hfile : w.disk.tree.get (routes_path env) = some (.file x)) (hlite : m.is_on_lite_proxy = true)
    (hversion : Parses m.mc_version)
    (hdirectory : ∀ q, q <+: miniverse_data_path env.toPlatform m.id → w.disk.tree.isFile q = false)
    (hcontrolled : ControlledAt env w m.id m.mc_version w.tick n)
    (hstarts : StartsAt env w.containers (container_name_of m.id) n) : Routed env (set_up_miniverse env m w).2 := by
  obtain ⟨d, hd, _⟩ := Disk.mkdirs_succeeds (ε := PyError) (miniverse_data_path_isName m.id) (d := w.disk) hdirectory
  have hcontrolled : ControlledAt env { w with disk := d } m.id m.mc_version w.tick n := by
    cases hcontrolled with
    | existing h => exact .existing h
    | new h hc => exact .new h hc
  obtain ⟨cs, hadd, hreg, _⟩ := add_miniverse_at (w := { w with disk := d }) hcontrolled
  obtain ⟨r, w', hstart⟩ := start_miniverse_run (w := { w with disk := d, controllers := cs, tick := n }) hlite hversion
    (Disk.isDir_of_mkdirs hd) hreg hstarts
  have hmk := routesKept_mkdirs env (miniverse_path_begins env m.id (List.prefix_refl _)) w hjars
  rw [onDisk_run hd] at hmk
  have hkept := within_start_object (routesKept_object env m.id) (within_init_data_path (routesKept_data env m.id)) trivial
    { w with disk := d, controllers := cs, tick := n } hjars
  rw [hstart] at hkept
  unfold set_up_miniverse
  rw [Eff.bind_run_ok (onDisk_run hd), Eff.bind_run_ok hadd, Eff.bind_run_ok hstart]
  refine routed_after_update (fun _ => ?_) hkept.1 (hkept.2.trans (hmk.2.trans hfile))
  exact (within_query _).bind fun _ => (within_publish _ _ _).bind fun _ => Eff.Within.pure _

theorem create_routed (h : Routed env w) {data : MiniverseCreate} (creator : User)
    (hanswered : InsertsRow env w data → SetUpAnswered env w data) : Routed env (create_miniverse env data creator w).2 := by
  rcases create_miniverse_cases env data creator w with ⟨e, w', hrun, hdb, hdisk, _⟩ | ⟨s, hsub, hfresh, hcommit, hrun⟩
  · rw [hrun]
    exact h.of_store (Prod.ext hdb hdisk)
  · obtain ⟨⟨hrole, hdirectory, hversion⟩, n, hcontrolled, hstarts⟩ := hanswered ⟨by rw [hsub]; rfl, hfresh, hcommit⟩
    rw [hrun, Eff.bind_run_ok (commit_ok _ hrole)]
    refine set_up_routed (n := n) h.jars h.inStep rfl hversion hdirectory ?_ hstarts
    cases hcontrolled with
    | existing h => exact .existing h
    | new h hc => exact .new h hc

/-- An update after its commit: where the routes are out of step, the upgrade returns and they are written. -/
theorem finish_update_routed {data : MiniverseUpdate} (hjars : ∀ r ∈ w.db.mods, IsJar r.file_name) {x : α}
    (hfile : w.disk.tree.get (routes_path env) = some (.file x))
    (hrow : ∀ a ∈ w.db.addresses, a.1 = m.id → a.2 = (data.apply m).subdomain)
    (h : InStep env w ∨ (data.apply m).subdomain ≠ m.subdomain ∧ ∀ v, data.mc_version = some v → m.mc_version ≠ v →
      Succeeds (update_miniverse_game_version env (data.apply m) v false) w) :
    Routed env (finish_update env m data w).2 := by
  have hpublish (m' : Miniverse) (b : Bool) : (do
      Eff.when b (publish .updated m'.id.str none)
      return m' : Act α Miniverse).Within (Same World.store) :=
    (Eff.Within.when fun _ => within_publish _ _ _).bind fun _ => Eff.Within.pure _
  unfold finish_update
  generalize hupgrade : ((data.mc_version.filter fun v => decide ((data.apply m).mc_version ≠ v)).elim
    (pure (data.apply m)) fun v => update_miniverse_game_version env (data.apply m) v false : Act α Miniverse) = upgrade
  have hsettled : upgrade.Within (Settled m.id (data.apply m).subdomain) := hupgrade ▸
    Eff.Within.elim (Eff.Within.pure _) fun v _ => settled_upgrade (data.apply m) v false
  have hkept : upgrade.Within (RoutesKept env) := hupgrade ▸
    Eff.Within.elim (Eff.Within.pure _) fun v _ => within_upgrade_object (routesKept_object env (data.apply m).id)
      (routesKept_data env (data.apply m).id) trivial false fun _ _ => trivial
  have haddresses := hsettled w hrow
  have hkept := hkept w hjars
  rw [Eff.bind_run]
  rcases hrun : upgrade w with ⟨e | m', w'⟩
  · rw [hrun] at haddresses hkept
    rcases h with h | ⟨_, hreturns⟩
    · exact ⟨hkept.1, h.of_same haddresses hkept.2⟩
    · -- the upgrade would have returned
      cases hversion : data.mc_version.filter fun v => decide ((data.apply m).mc_version ≠ v) with
      | none =>
          rw [hversion] at hupgrade
          rw [← hupgrade] at hrun
          cases hrun
      | some v =>
          obtain ⟨hv, hne⟩ := Option.filter_eq_some_iff.mp hversion
          obtain ⟨_, _, hok⟩ := hreturns v hv (of_decide_eq_true hne)
          rw [hversion] at hupgrade
          rw [← hupgrade] at hrun
          rw [Option.elim_some, hok] at hrun
          cases hrun
  · rw [hrun] at haddresses hkept
    by_cases hchanged : (data.apply m).subdomain ≠ m.subdomain ∨ (data.apply m).allow_bedrock ≠ m.allow_bedrock
    · rw [decide_eq_true hchanged, Eff.when_true]
      exact routed_after_update (fun _ => hpublish _ _) hkept.1 (hkept.2.trans hfile)
    · rw [decide_eq_false hchanged, Eff.when_false]
      rcases h with h | ⟨hne, _⟩
      · exact Routed.of_store ⟨hkept.1, h.of_same haddresses hkept.2⟩ (hpublish _ _ w')
      · exact absurd (Or.inl hne) hchanged

theorem update_routed (hids : (w.db.addresses.map Prod.fst).Nodup) (hm : m ∈ w.db.miniverses) (h : Routed env w)
    {data : MiniverseUpdate}
    (hreturns : StoresFields env w m data → (data.apply m).subdomain ≠ m.subdomain → ∀ v, data.mc_version = some v →
      m.mc_version ≠ v → Succeeds (update_miniverse_game_version env (data.apply m) v false)
        { w.next with db := w.db.saveMiniverse (data.apply m) }) : Routed env (update_miniverse env m data w).2 := by
  rcases update_miniverse_cases env m data w with ⟨e, w', hrun, hdb, hdisk, _⟩ | ⟨hsame, hrun⟩ | ⟨hstores, hrun⟩
  · rw [hrun]
    exact h.of_store (Prod.ext hdb hdisk)
  · rw [hrun]
    refine finish_update_routed h.jars h.inStep ?_ (Or.inl h.inStep)
    rw [hsame]
    exact subdomain_of_row hids hm
  · rw [hrun]
    refine finish_update_routed (w := { w.next with db := w.db.saveMiniverse (data.apply m) }) h.jars h.inStep
      subdomain_of_saved ?_
    by_cases hsub : (data.apply m).subdomain = m.subdomain
    · refine Or.inl (h.inStep.of_same ?_ rfl)
      exact addresses_saveMiniverse (m := data.apply m) fun a ha haid => (subdomain_of_row hids hm a ha haid).trans hsub.symm
    · exact Or.inr ⟨hsub, hreturns hstores hsub⟩

/-- The calls to the outside before the commit of a deletion were answered. -/
theorem dismantle_at (h : dismantle env m w = (.ok (), w')) :
    ∃ n, StopsAt env w m.id n ∧ RemovedAt env w.containers (truthy m.container_id) n w'.tick := by
  obtain ⟨_, w₁, hremove, hrest⟩ := Eff.bind_ok h
  obtain ⟨_, w₂, hcontainer, hvolume⟩ := Eff.bind_ok hrest
  obtain ⟨hstops, hcontainers⟩ := remove_miniverse_at hremove
  have hticks : w'.tick = w₂.tick := by
    obtain ⟨d, hrun⟩ := remove_volume_run env m.id w₂
    rw [hrun] at hvolume
    cases hvolume
    rfl
  refine ⟨_, hstops, ?_⟩
  rw [← hcontainers, hticks]
  cases hid : truthy m.container_id with
  | none =>
      rw [hid] at hcontainer
      cases hcontainer
      exact .none
  | some container_id =>
      rw [hid, Option.elim_some] at hcontainer
      exact remove_container_at hcontainer

theorem delete_routed (h : Routed env w)
    (hanswered : ∀ n n', StopsAt env w m.id n → RemovedAt env w.containers (truthy m.container_id) n n' →
      env.commit n' = .ok () → env.delete_miniverse_cache (n' + 1) m.id = .ok ()) : Routed env (delete_miniverse env m w).2 := by
  rcases delete_miniverse_cases env m (R := Same (World.routed env)) (fun _ => rfl)
    (same_routed_remove_volume env m.id) w with ⟨e, w', hrun, hsame⟩ | ⟨w₁, hsame, hdismantled, hcommit, hrun⟩
  · rw [hrun]
    obtain ⟨hdb, hfile⟩ : w'.db = w.db ∧ w'.disk.tree.get (routes_path env) = w.disk.tree.get (routes_path env) :=
      Prod.ext_iff.mp hsame
    exact ⟨hdb ▸ h.jars, h.inStep.of_same (by rw [hdb]) hfile⟩
  · obtain ⟨hdb, hfile⟩ : w₁.db = w.db ∧ w₁.disk.tree.get (routes_path env) = w.disk.tree.get (routes_path env) :=
      Prod.ext_iff.mp hsame
    obtain ⟨n, hstops, hremoved⟩ := dismantle_at hdismantled
    have hcache := hanswered n w₁.tick hstops hremoved hcommit
    rw [hrun, finish_delete, Eff.bind_run_ok (ask_ok hcache)]
    refine routed_after_update (fun _ => within_publish _ _ _) (fun r hr => h.jars r ?_) (hfile.trans h.inStep)
    exact hdb ▸ (List.mem_filter.mp hr).1

/-- What each call needs so that it writes the routes after it changed the addresses: the start of a new miniverse is
answered, an upgrade along with a new subdomain returns, and the status of a deleted miniverse is removed. -/
def RoutesWritten (env : Env α) (w : World α) : MiniverseCall → Prop
  | .create_miniverse data _ => InsertsRow env w data → SetUpAnswered env w data
  | .update_miniverse miniverse_id data => ∀ m, w.db.findMiniverse miniverse_id = some m → StoresFields env w m data →
      (data.apply m).subdomain ≠ m.subdomain → ∀ v, data.mc_version = some v → m.mc_version ≠ v →
        Succeeds (update_miniverse_game_version env (data.apply m) v false)
          { w.next with db := w.db.saveMiniverse (data.apply m) }
  | .delete_miniverse miniverse_id => ∀ m, w.db.findMiniverse miniverse_id = some m →
      ∀ n n', StopsAt env w m.id n → RemovedAt env w.containers (truthy m.container_id) n n' → env.commit n' = .ok () →
        env.delete_miniverse_cache (n' + 1) m.id = .ok ()
  | _ => True

/-- A call on a row that keeps the addresses and the file. -/
theorem routed_of_kept (hids : (w.db.addresses.map Prod.fst).Nodup) (h : Routed env w) {miniverse_id : String}
    {k : Miniverse → Act α β} (hsettled : ∀ m, (k m).Within (Settled m.id m.subdomain))
    (hkept : ∀ m, (k m).Within (RoutesKept env)) :
    Routed env (withRow miniverse_id (fun m => do let _ ← k m) w).2 := by
  rcases withRow_cases miniverse_id (fun m => do let _ ← k m) w with hrun | ⟨m, hm, hrun⟩
  · rw [hrun]
    exact h
  · rw [hrun, bind_unit_state]
    exact h.kept (hsettled m w (subdomain_of_row hids hm)) (hkept m w)

theorem call_routed (hids : (w.db.addresses.map Prod.fst).Nodup) (h : Routed env w) {c : MiniverseCall}
    (hwritten : RoutesWritten env w c) : Routed env (c.perform env w).2 := by
  have hobject (id : Uuid4) := routesKept_object env id
  have hinit (m : Miniverse) := within_init_data_path (routesKept_data env m.id)
  cases c with
  | create_miniverse data creator =>
      rw [MiniverseCall.perform, bind_unit_state]
      exact create_routed h creator hwritten
  | update_miniverse miniverse_id data =>
      rw [MiniverseCall.perform, withRow, query, Eff.read_bind_run]
      cases hm : w.db.findMiniverse miniverse_id with
      | none => exact h
      | some m =>
          rw [Option.elim_some, bind_unit_state]
          exact update_routed hids (List.mem_of_find?_eq_some hm) h (hwritten m hm)
  | start_miniverse miniverse_id =>
      exact routed_of_kept hids h settled_start_miniverse fun m => within_start_object (hobject m.id) (hinit m) trivial
  | stop_miniverse miniverse_id =>
      exact routed_of_kept hids h (fun m => within_stop_object (settled_object _ _) rfl)
        fun m => within_stop_object (hobject m.id) trivial
  | restart_miniverse miniverse_id =>
      exact routed_of_kept hids h (fun m => within_restart_object (settled_object _ _)
        (within_init_data_path (settled_data _ _ _)) rfl) fun m => within_restart_object (hobject m.id) (hinit _) trivial
  | delete_miniverse miniverse_id =>
      rw [MiniverseCall.perform, withRow, query, Eff.read_bind_run]
      cases hm : w.db.findMiniverse miniverse_id with
      | none => exact h
      | some m => exact delete_routed h (hwritten m hm)

end Backend
