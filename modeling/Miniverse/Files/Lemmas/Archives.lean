import Miniverse.Files.Lemmas.Members
import Miniverse.Files.Lemmas.Zips

/-!
# The members of an archive that was made here
-/

namespace Backend

open Lib

variable {α : Type} {pf : Platform α}

/-! ## Names -/

/-- A member that is named by a location is the file there. -/
theorem member_of_name {m : ZipMember α} {p : Loc} (hne : p ≠ []) (hnames : ∀ c ∈ p, IsName c)
    (hname : m.filename = relativePosix [] p) : m.is_dir = false ∧ m.path = p := by
  have hchars : m.filename.toList = ['/'].intercalate (p.map String.toList) := by
    rw [hname, relativePosix, String.toList_ofList, List.length_nil, List.drop_zero]
  have hsplit : m.filename.toList.splitOn '/' = p.map String.toList := by
    rw [hchars]
    refine List.splitOn_intercalate '/' (fun l hl => ?_) (by simpa using hne)
    obtain ⟨c, hc, rfl⟩ := List.mem_map.mp hl
    exact (hnames c hc).2.2.2.1
  have hdir : m.is_dir = false := by
    rw [ZipMember.is_dir, beq_eq_false_iff_ne]
    intro hlast
    -- a final slash would end the location with an empty name
    obtain ⟨init, hinit⟩ := List.getLast?_eq_some_iff.mp hlast
    rw [hinit, List.splitOn_append_cons_self] at hsplit
    have hempty : [] ∈ p.map String.toList := hsplit ▸ List.mem_append_right _ List.mem_cons_self
    obtain ⟨c, hc, hnil⟩ := List.mem_map.mp hempty
    exact (hnames c hc).1 (String.toList_eq_nil_iff.mp hnil)
  refine ⟨hdir, ?_⟩
  rw [ZipMember.path, hdir, if_neg Bool.false_ne_true, hsplit, List.map_map, List.map_congr_left (g := id), List.map_id]
  exact fun c _ => String.ofList_toList

/-! ## Found files -/

section Selection

variable {root parent : Loc} {paths : List PurePath} {files : List Loc} {t : FileTree α} {e e' : Loc × α}

/-- A found file is named by the last component of its path. -/
theorem mem_found (htail : ∀ path ∈ paths, ∃ init, path.tail = init ++ [path.name]) : e ∈ found pf t paths ↔
    ∃ path ∈ paths, ∃ rel, FoundBelow pf t path rel e.2 ∧ e.1 = path.name :: rel := by
  obtain ⟨q, x⟩ := e
  rw [found, List.mem_flatMap]
  refine exists_congr fun path => and_congr_right fun hpath => ?_
  obtain ⟨init, hinit⟩ := htail path hpath
  have hlast : path.tail.drop (path.tail.length - 1) = [path.name] := by
    rw [hinit, List.length_append, List.length_singleton, Nat.add_sub_cancel, List.drop_left]
  unfold foundAt FoundBelow
  rw [hlast]
  rcases t.locate pf.cwd path with _ | p
  · simp
  · dsimp only
    simp only [List.mem_map, Prod.mk.injEq, Option.some.injEq, exists_eq_left', List.singleton_append]
    constructor
    · rintro ⟨⟨q', y⟩, hmem, rfl, rfl⟩
      obtain ⟨⟨rel, rfl⟩, hget⟩ := mem_listedFiles.mp hmem
      exact ⟨rel, hget, by rw [List.drop_left]⟩
    · rintro ⟨rel, hget, rfl⟩
      exact ⟨(_, x), mem_listedFiles.mpr ⟨List.prefix_append _ rel, hget⟩, by rw [List.drop_left], rfl⟩

/-- The paths are walked under names of their own. -/
structure Walkable (paths : List PurePath) : Prop where
  tail : ∀ path ∈ paths, ∃ init, path.tail = init ++ [path.name]
  name : ∀ path ∈ paths, IsName path.name
  distinct : (paths.map PurePath.name).Nodup

/-- Selected entries of one directory have such paths, unless one ends with the parent component. -/
theorem walkable_of_selected (hroot : ∀ c ∈ root, IsName c) (hsafe : safe_user_paths root paths = .ok files)
    (hnodup : files.Nodup) (hne : ∀ file ∈ files, file ≠ root) (hparent : ∀ file ∈ files, file.parent = parent)
    (hdots : ∀ path ∈ paths, path.name ≠ "..") : Walkable paths := by
  have hup : ∀ c ∈ root, c ≠ ".." := fun c hc => (hroot c hc).2.2.1
  have hfile : ∀ path ∈ paths, ∃ file ∈ files, file = parent ++ [path.name] ∧ file = resolveFrom root path.tail ∧
      IsName path.name ∧ ∃ init, path.tail = init ++ [path.name] := by
    intro path hpath
    obtain ⟨file, hfile⟩ := safe_user_paths_accepts.mp ⟨files, hsafe⟩ path hpath
    have hmem := (mem_safe_user_paths hsafe file).mpr ⟨path, hpath, hfile⟩
    obtain ⟨init, htail, _, hname⟩ := last_component hup hfile (hne file hmem)
    have hnil : file ≠ [] := by
      rintro rfl
      exact hne [] hmem (List.prefix_nil.mp (safe_user_path_below hup hfile)).symm
    have heq : file = parent ++ [path.name] := by
      rw [← hname (hdots path hpath), ← hparent file hmem]
      exact (Loc.parent_append_name hnil).symm
    have hall := safe_user_path_isName hroot hfile
    exact ⟨file, hmem, heq, ((safe_user_path_ok hup).mp hfile).2.1, hall _ (by rw [heq]; simp), init, htail⟩
  refine ⟨fun path hpath => ?_, fun path hpath => ?_, ?_⟩
  · obtain ⟨_, _, _, _, _, h⟩ := hfile path hpath
    exact h
  · obtain ⟨_, _, _, _, h, _⟩ := hfile path hpath
    exact h
  · -- equal names are one selected entry
    rw [safe_user_paths_eq hup hsafe] at hnodup
    refine hnodup.of_map.map_on fun path hpath path' hpath' heq => List.inj_on_of_nodup_map hnodup hpath hpath' ?_
    obtain ⟨_, _, hloc, hres, _⟩ := hfile path hpath
    obtain ⟨_, _, hloc', hres', _⟩ := hfile path' hpath'
    rw [← hres, ← hres', hloc, hloc', heq]

variable (hwalk : Walkable paths)

include hwalk

theorem Walkable.mem_found : e ∈ found pf t paths ↔
    ∃ path ∈ paths, ∃ rel, FoundBelow pf t path rel e.2 ∧ e.1 = path.name :: rel := Backend.mem_found hwalk.tail

theorem Walkable.isName (he : e ∈ found pf t paths) : e.1 ≠ [] ∧ ∀ c ∈ e.1, IsName c := by
  obtain ⟨path, hpath, rel, ⟨p, _, hget⟩, hloc⟩ := hwalk.mem_found.mp he
  rw [hloc]
  refine ⟨List.cons_ne_nil _ _, fun c hc => ?_⟩
  rcases List.mem_cons.mp hc with rfl | hc
  · exact hwalk.name path hpath
  · exact FileTree.isName_of_exists (FileTree.exists_iff.mpr ⟨_, hget⟩) c (List.mem_append_right p hc)

/-- No found file lies below another one, and none is found twice. -/
theorem Walkable.above (he : e ∈ found pf t paths) (he' : e' ∈ found pf t paths) (hle : e.1 <+: e'.1) : e = e' := by
  obtain ⟨path, hpath, rel, ⟨p, hloc, hget⟩, hfst⟩ := hwalk.mem_found.mp he
  obtain ⟨path', hpath', rel', ⟨p', hloc', hget'⟩, hfst'⟩ := hwalk.mem_found.mp he'
  rw [hfst, hfst', List.cons_prefix_cons] at hle
  obtain rfl := List.inj_on_of_nodup_map hwalk.distinct hpath hpath' hle.1
  obtain rfl : p = p' := Option.some.inj (hloc.symm.trans hloc')
  have hbelow : p ++ rel <+: p ++ rel' := (List.prefix_append_right_inj p).mpr hle.2
  have hsame : p ++ rel = p ++ rel' := by
    by_contra hne
    have hdir := FileTree.isDir_above hbelow hne (FileTree.exists_iff.mpr ⟨_, hget'⟩)
    rw [FileTree.isDir_eq_false_of_isFile (FileTree.isFile_iff.mpr ⟨_, hget⟩)] at hdir
    cases hdir
  rw [hsame, hget', Option.some.injEq, Node.file.injEq] at hget
  exact Prod.ext (by rw [hfst, hfst', List.append_cancel_left hsame]) hget.symm

theorem Walkable.nodup : ((found pf t paths).map Prod.fst).Nodup := by
  have hfound : (found pf t paths).Nodup := by
    refine List.nodup_flatMap.mpr ⟨fun path hpath => ?_, ?_⟩
    · obtain ⟨init, htail⟩ := hwalk.tail path hpath
      have hentries : (zip_entries pf t path).Nodup := by
        rw [zip_entries_eq htail]
        rcases t.locate pf.cwd path with _ | p
        · exact List.nodup_nil
        · exact nodup_storedUnder t (hwalk.name path hpath).isComponent p
      rw [zip_entries_eq_found] at hentries
      exact hentries.of_map
    · refine (List.pairwise_map.mp hwalk.distinct).imp_of_mem fun {path path'} hpath hpath' hne e he he' => hne ?_
      -- a file that two paths find has both names
      have hown {path : PurePath} (hpath : path ∈ paths) (he : e ∈ foundAt pf t path) : e.1.head? = some path.name := by
        have hmem : e ∈ found pf t [path] := List.mem_flatMap.mpr ⟨path, List.mem_singleton_self _, he⟩
        obtain ⟨_, hp, rel, _, hloc⟩ := (Backend.mem_found fun p hp => List.mem_singleton.mp hp ▸ hwalk.tail path hpath).mp hmem
        rw [hloc, List.mem_singleton.mp hp, List.head?_cons]
      exact Option.some.inj ((hown hpath he).symm.trans (hown hpath' he'))
  exact hfound.map_on fun e he e' he' heq => hwalk.above he he' (heq ▸ List.prefix_refl _)

/-- What the archive stores is read back as it was found. -/
theorem Walkable.read_back (hzip : ReadsBack pf) (t : FileTree α) :
    ∃ members, pf.zipfile (pf.zipstream (paths.flatMap (zip_entries pf t))) = some members ∧ WellFormed members ∧
      (∀ m ∈ members, m.is_dir = false) ∧ members.map (fun m => (m.path, m.data)) = found pf t paths := by
  have hstored : paths.flatMap (zip_entries pf t) = (found pf t paths).map fun e => (relativePosix [] e.1, e.2) :=
    flatMap_zip_entries t paths
  have harchive : ∀ e ∈ paths.flatMap (zip_entries pf t), ArchiveName e.1 := by
    intro entry hentry
    rw [hstored] at hentry
    obtain ⟨e, he, rfl⟩ := List.mem_map.mp hentry
    obtain ⟨hne, hnames⟩ := hwalk.isName he
    obtain ⟨c, rel, hloc⟩ := List.exists_cons_of_ne_nil hne
    rw [hloc] at hnames
    exact ⟨c, rel, Or.inl (hnames c List.mem_cons_self), fun d hd => hnames d (List.mem_cons_of_mem c hd),
      congrArg (relativePosix []) hloc⟩
  obtain ⟨members, hmembers, hentries, hreadable⟩ := hzip _ harchive
  rw [hstored] at hentries
  have hmember : ∀ m ∈ members, ∃ e ∈ found pf t paths, m.filename = relativePosix [] e.1 ∧ m.data = e.2 := by
    intro m hm
    have hmem : (m.filename, m.data) ∈ members.map fun m => (m.filename, m.data) := List.mem_map_of_mem hm
    rw [hentries] at hmem
    obtain ⟨e, he, heq⟩ := List.mem_map.mp hmem
    exact ⟨e, he, (Prod.mk.inj heq).1.symm, (Prod.mk.inj heq).2.symm⟩
  have hpath : ∀ m ∈ members, m.is_dir = false ∧ (m.path, m.data) ∈ found pf t paths := by
    intro m hm
    obtain ⟨e, he, hname, hdata⟩ := hmember m hm
    obtain ⟨hne, hnames⟩ := hwalk.isName he
    obtain ⟨hdir, hpath⟩ := member_of_name hne hnames hname
    exact ⟨hdir, by rwa [hpath, hdata]⟩
  have hread : members.map (fun m => (m.path, m.data)) = found pf t paths := by
    have hcomponents : ∀ e ∈ members.map fun m => (m.path, m.data), ∀ c ∈ e.1, IsComponent c := by
      intro e he c hc
      obtain ⟨m, hm, rfl⟩ := List.mem_map.mp he
      exact ((hwalk.isName (hpath m hm).2).2 c hc).isComponent
    refine map_names_injective hcomponents isComponent_found ?_
    rw [← hentries, List.map_map]
    refine List.map_congr_left fun m hm => Prod.ext ?_ rfl
    obtain ⟨e, he, hname, _⟩ := hmember m hm
    obtain ⟨hne, hnames⟩ := hwalk.isName he
    exact ((member_of_name hne hnames hname).2 ▸ hname).symm
  refine ⟨members, hmembers, ⟨fun m hm => (hwalk.isName (hpath m hm).2).2, ?_, fun m hm m' hm' _ hle => ?_, hreadable⟩,
    fun m hm => (hpath m hm).1, hread⟩
  · have hdistinct : ((found pf t paths).map Prod.fst).Nodup := hwalk.nodup
    rwa [← hread, List.map_map] at hdistinct
  · exact congrArg Prod.fst (hwalk.above (hpath m hm).2 (hpath m' hm').2 hle)

end Selection

/-! ## The name of an archive -/

/-- A name that is cut at a dot. -/
theorem stem_and_suffix {name : String} {s e : List Char} (hs : s ≠ []) (he : e ≠ []) (hdot : '.' ∉ e)
    (hname : name.toList = s ++ '.' :: e) : stem name = String.ofList s ∧ suffix name = String.ofList ('.' :: e) := by
  have hplain : ∀ c ∈ e.reverse, decide (c ≠ '.') = true := by
    intro c hc
    rw [decide_eq_true_eq]
    rintro rfl
    exact hdot (List.mem_reverse.mp hc)
  have hreverse : (s ++ '.' :: e).reverse = e.reverse ++ '.' :: s.reverse := by simp
  have hcut : splitSuffix (s ++ '.' :: e) = (s, '.' :: e) := by
    unfold splitSuffix
    rw [hreverse, List.dropWhile_append_of_pos hplain, List.takeWhile_append_of_pos hplain]
    simp [hs, he]
  rw [stem, suffix, hname, hcut]
  exact ⟨rfl, rfl⟩

section Name

variable {parent archive : Loc} {files : List Loc} {t : FileTree α} (hnames : ∀ file ∈ files, IsName file.name)

include hnames

theorem destination_name_eq : ∃ s, IsName s ∧ destination_name files = s ++ ".zip" := by
  unfold destination_name
  split
  · exact ⟨_, hnames _ List.mem_cons_self, rfl⟩
  · exact ⟨"Archive", by decide, rfl⟩

/-- The name is `X.zip`, or a numbered one next to it. -/
theorem archive_name_cases (h : change_path_name_if_exists t (parent ++ [destination_name files]) = archive) :
    ∃ s, IsName s ∧ (archive.name = s ++ ".zip" ∧ t.isDir (parent ++ [destination_name files]) = false ∨
      ∃ k : Nat, if t.isDir (parent ++ [destination_name files]) = true then archive.name = s ++ ".zip" ++ " (" ++ k.repr ++ ")"
        else archive.name = s ++ " (" ++ k.repr ++ ")" ++ ".zip") := by
  obtain ⟨s, hs, hname⟩ := destination_name_eq hnames
  refine ⟨s, hs, ?_⟩
  have hchars : (s ++ ".zip").toList = s.toList ++ '.' :: ['z', 'i', 'p'] := String.toList_append
  obtain ⟨hstem, hsuffix⟩ := stem_and_suffix (fun hnil => hs.1 (String.toList_eq_nil_iff.mp hnil)) (by decide) (by decide) hchars
  rw [String.ofList_toList] at hstem
  obtain ⟨b, hb⟩ := Option.isSome_iff_exists.mp (freeName_isSome t (parent ++ [destination_name files]))
  obtain ⟨k, hk, hcandidate, hfree, _⟩ := firstFree_eq_some hb
  have harchive : archive = candidate t (parent ++ [destination_name files]) k := by
    rw [← h, ← hcandidate]
    simp [change_path_name_if_exists, hb]
  have hparent : (parent ++ [destination_name files]).parent = parent := Loc.parent_concat _ _
  rw [harchive]
  unfold candidate at hcandidate ⊢
  by_cases hfirst : k ≤ 1
  · left
    rw [if_pos hfirst] at hcandidate ⊢
    rw [hcandidate] at hfree
    refine ⟨by rw [Loc.name_concat, hname], ?_⟩
    by_contra hdir
    rw [FileTree.exists_of_isDir (by simpa using hdir)] at hfree
    cases hfree
  · right
    rw [if_neg hfirst, Loc.name_concat, hparent, hname, hstem, hsuffix]
    refine ⟨k, ?_⟩
    cases t.isDir (parent ++ [s ++ ".zip"]) with
    | true => exact Loc.name_concat _ _
    | false => exact Loc.name_concat _ _

theorem archive_is_zip (h : change_path_name_if_exists t (parent ++ [destination_name files]) = archive)
    (hdir : t.isDir (parent ++ [destination_name files]) = false) :
    (suffix archive.name).toList.map Char.toLower = ".zip".toList ∧ IsName (stem archive.name) := by
  have hzip {s : String} (hs : IsName s) (hname : archive.name = s ++ ".zip") :
      (suffix archive.name).toList.map Char.toLower = ".zip".toList ∧ IsName (stem archive.name) := by
    have hchars : archive.name.toList = s.toList ++ '.' :: ['z', 'i', 'p'] := hname ▸ String.toList_append
    obtain ⟨hstem, hsuffix⟩ := stem_and_suffix (fun hnil => hs.1 (String.toList_eq_nil_iff.mp hnil)) (by decide) (by decide) hchars
    rw [hstem, hsuffix, String.ofList_toList]
    exact ⟨by decide, hs⟩
  obtain ⟨s, hs, ⟨hname, _⟩ | ⟨k, hname⟩⟩ := archive_name_cases hnames h
  · exact hzip hs hname
  · rw [if_neg (by rw [hdir]; decide)] at hname
    have hnumbered := isName_numbered (i := k) (b := "") ⟨hs.2.2.2.1, hs.2.2.2.2⟩ (by decide)
    rw [String.append_empty] at hnumbered
    exact hzip hnumbered hname

/-- Next to a directory with the name, the numbered name has another suffix. -/
theorem archive_is_no_zip (h : change_path_name_if_exists t (parent ++ [destination_name files]) = archive)
    (hdir : t.isDir (parent ++ [destination_name files]) = true) :
    (suffix archive.name).toList.map Char.toLower ≠ ".zip".toList := by
  obtain ⟨s, hs, ⟨_, hno⟩ | ⟨k, hname⟩⟩ := archive_name_cases hnames h
  · rw [hno] at hdir
    cases hdir
  · rw [if_pos hdir] at hname
    have hchars : archive.name.toList = s.toList ++ '.' :: ("zip (".toList ++ k.repr.toList ++ [')']) := by
      rw [hname]
      simp
    have hdot : '.' ∉ "zip (".toList ++ k.repr.toList ++ [')'] := by
      have hdigits : '.' ∉ k.repr.toList := fun hmem => absurd (isDigit_of_mem_repr hmem) (by decide)
      simpa using hdigits
    obtain ⟨_, hsuffix⟩ := stem_and_suffix (fun hnil => hs.1 (String.toList_eq_nil_iff.mp hnil)) (by simp) hdot hchars
    intro heq
    have hlen := congrArg List.length heq
    rw [hsuffix, List.length_map, String.toList_ofList] at hlen
    simp at hlen

end Name

theorem extract_unsupported {id : Uuid4} {path : PurePath} {archive : Loc} {d : Disk α}
    (hsafe : safe_user_path (miniverse_data_path pf id) path = .ok archive) (hfile : d.tree.isFile archive = true)
    (hzip : (suffix archive.name).toList.map Char.toLower ≠ ".zip".toList) :
    extract_miniverse_archive pf id path d = (.error (.valueError "Unsupported archive format"), d) := by
  unfold extract_miniverse_archive
  rw [hsafe, Eff.ofExcept_ok_bind, Disk.look, Eff.read_bind_run, hfile, Bool.not_true, Eff.raiseIf_false_bind, if_neg hzip]
  rfl

end Backend
