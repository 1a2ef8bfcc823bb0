import Miniverse.Mods.Lemmas.Facets

/-!
# Theorems about the parameters of the requests
-/

namespace Backend

open Lib
open Lib.JsonText

/-- The text is JSON, and is read as the list of strings. -/
def ReadAsStrings (values : List String) (text : String) : Prop :=
  Padded (ArrayText fun (s : String) t => StringText s.toList t) values text.toList

/-- The text is JSON, and is read as the list of lists of strings. -/
def ReadAsLists (values : List (List String)) (text : String) : Prop :=
  Padded (ArrayText (ArrayText fun (s : String) t => StringText s.toList t)) values text.toList

theorem readAsStrings_iff (printing : Printing) (values : List String) :
    ReadAsStrings values (dumps_values (reprStr printing) values) ↔ ∀ s ∈ values, Plain printing s := by
  rw [ReadAsStrings, dumps_values, String.toList_ofList, (dumped_string printing).list.text_iff, List.flatMap_singleton']

theorem readAsLists_iff (printing : Printing) (values : List (List String)) :
    ReadAsLists values (dumps_values (strList (reprStr printing)) values) ↔ ∀ vs ∈ values, ∀ s ∈ vs, Plain printing s := by
  rw [ReadAsLists, dumps_values, String.toList_ofList, (dumped_string printing).list.list.text_iff]
  simp only [List.flatMap_singleton', List.mem_flatMap]
  exact ⟨fun h vs hvs s hs => h s ⟨vs, hvs, hs⟩, fun h s ⟨vs, hvs, hs⟩ => h vs hvs s hs⟩

/-- A list, or a list of lists, is read back exactly when all its strings are plain. -/
theorem query_values_json_iff (printing : Printing) :
    (∀ values, ReadAsStrings values (dumps_values (reprStr printing) values) ↔ ∀ s ∈ values, Plain printing s) ∧
      ∀ values, ReadAsLists values (dumps_values (strList (reprStr printing)) values) ↔
        ∀ vs ∈ values, ∀ s ∈ vs, Plain printing s :=
  ⟨readAsStrings_iff printing, readAsLists_iff printing⟩

/-- Of the characters, the printable ones of ASCII. -/
def samplePrinting : Printing where
  isPrintable c := decide (32 ≤ c.toNat ∧ c.toNat < 127)
  ascii _ _ := decide_eq_true_iff

/-- A quote is not escaped. -/
theorem query_value_broken : ¬ ∀ (printing : Printing),
    (∀ values, ReadAsStrings values (dumps_values (reprStr printing) values)) ∧
      ∀ values, ReadAsLists values (dumps_values (strList (reprStr printing)) values) := by
  intro h
  have hplain := (readAsStrings_iff samplePrinting ["'"]).mp ((h samplePrinting).1 ["'"]) "'" List.mem_cons_self
  exact (hplain '\'' (by decide)).2.1 rfl

theorem plain_append {printing : Printing} {s t : String} : Plain printing (s ++ t) ↔ Plain printing s ∧ Plain printing t := by
  simp only [Plain, String.toList_append, List.forall_mem_append]

/-- Plain texts of the program. -/
theorem plain_ascii {s : String}
    (h : (s.toList.all fun c => decide (32 ≤ c.toNat ∧ c.toNat < 127 ∧ c ≠ '\'' ∧ c ≠ '"' ∧ c ≠ '\\')) = true)
    (printing : Printing) : Plain printing s := by
  intro c hc
  obtain ⟨hspace, htilde, hrest⟩ := of_decide_eq_true (List.all_eq_true.mp h c hc)
  exact ⟨(printing.ascii c (Nat.lt_succ_of_lt htilde)).mpr ⟨hspace, htilde⟩, hrest⟩

theorem plain_build_or_facets {printing : Printing} {key : String} (hkey : Plain printing key) (values : String ⊕ List String) :
    (∀ s ∈ build_or_facets key values, Plain printing s) ↔ ∀ v ∈ values.elim (fun v => [v]) id, Plain printing v := by
  have hcolon : Plain printing ":" := plain_ascii (by decide) printing
  simp only [build_or_facets, List.mem_map, forall_exists_index, and_imp, forall_apply_eq_imp_iff₂, plain_append, hkey, hcolon,
    true_and]

theorem forall_facet {β : Type} {o : Option β} {f : β → List String} {P : List String → Prop} :
    (∀ vs ∈ (o.map f).toList, P vs) ↔ ∀ b, o = some b → P (f b) := by
  cases o <;> simp

/-- Only the categories and the versions, which are free texts, can break the facets. -/
theorem build_facets_json_iff (printing : Printing) (facets : ModrinthSearchFacets) :
    ReadAsLists facets.collect (build_facets printing facets) ↔
      (∀ vs, facets.categories = some vs → ∀ v ∈ vs, Plain printing v) ∧
      ∀ vs, facets.versions = some vs → ∀ v ∈ vs, Plain printing v := by
  have hfacets (key : String) (hkey : Plain printing key) := @plain_build_or_facets printing key hkey
  have hproject_type := hfacets "project_type" (plain_ascii (by decide) printing)
  have hcategories := hfacets "categories" (plain_ascii (by decide) printing)
  have hversions := hfacets "versions" (plain_ascii (by decide) printing)
  have hclient_side := hfacets "client_side" (plain_ascii (by decide) printing)
  have hserver_side := hfacets "server_side" (plain_ascii (by decide) printing)
  have htype (t : ModrinthProjectType) : Plain printing t.value := by
    cases t <;> exact plain_ascii (by decide) printing
  have hside (side : ModSideSupport) : Plain printing side.value := by
    cases side <;> exact plain_ascii (by decide) printing
  rw [build_facets, readAsLists_iff, ModrinthSearchFacets.collect]
  simp only [List.forall_mem_append, forall_facet, hproject_type, hcategories, hversions, hclient_side, hserver_side, Sum.elim_inl,
    Sum.elim_inr, id_eq, List.forall_mem_singleton, htype, hside, implies_true, true_and, and_true]

/-- The loader of a request is always read back, and the game version if it is plain. -/
theorem project_versions_params_json_iff (printing : Printing) (loader : MiniverseType) {mc_version : String}
    (hversion : mc_version ≠ "") : ∃ loaders game_versions,
      project_versions_params printing (some loader) (some mc_version) = (some loaders, some game_versions) ∧
      ReadAsStrings [loader.lower] loaders ∧ (ReadAsStrings [mc_version] game_versions ↔ Plain printing mc_version) := by
  have hloader : Plain printing loader.lower := by
    cases loader <;> exact plain_ascii (by decide) printing
  refine ⟨dumps_values (reprStr printing) [loader.lower], dumps_values (reprStr printing) [mc_version], ?_, ?_, ?_⟩
  · rw [project_versions_params, Option.filter_some, if_pos (decide_eq_true hversion)]
    rfl
  · exact (readAsStrings_iff printing _).mpr (List.forall_mem_singleton.mpr hloader)
  · rw [readAsStrings_iff, List.forall_mem_singleton]

end Backend
