import Miniverse.Files.Lemmas.Agree
import Miniverse.Files.Lemmas.Zips

/-!
# What two runs lead to

For each request, what makes two runs of it lead to the same.
-/

namespace Backend

open Lib

variable {α : Type} {pf : Platform α} {root : Loc}

/-! ## Requests that stay inside -/

theorem frame_copytree {depth : Nat} {src dst : Loc} : (Fs.copytree depth src dst : Fs α Unit).Within Disk.Frame := by
  induction depth generalizing src dst with
  | zero => exact Eff.Within.raise _
  | succ depth ih =>
      refine (Fs.within_scandir src).bind fun es => (Fs.within_makedirsRev fun q _ => Disk.frame_mkdir q).bind fun _ => ?_
      refine (Fs.within_copyEntries (fun e => ?_) es).bind fun _ => Eff.Within.raiseIf _ _
      exact ih.ite (Fs.within_copy2 fun q x _ => Disk.frame_write q x)

theorem frame_copy (id : Uuid4) (paths : List PurePath) (destination : PurePath) :
    (copy_miniverse_files pf id paths destination).Within Disk.Frame := by
  refine (Eff.Within.ofExcept _).bind fun files => (Eff.Within.ofExcept _).bind fun dest => Eff.Within.forM fun src _ => ?_
  refine (Disk.within_look _).bind fun _ => Eff.Within.ite ((Disk.within_look _).bind fun dst => ?_) (Eff.Within.pure _)
  exact (Disk.within_look _).bind fun _ => frame_copytree.ite (Fs.within_copy2 fun q x _ => Disk.frame_write q x)

/-- Copies change nothing outside of the data directory. -/
theorem copy_off (id : Uuid4) (paths : List PurePath) (destination : PurePath) (t : FileTree α) {q : Loc}
    (hq : ¬ miniverse_data_path pf id <+: q) : (copy_miniverse_files pf id paths destination ⟨t, []⟩).2.tree.get q = t.get q := by
  have hframe : (copy_miniverse_files pf id paths destination).Within Disk.Frame := frame_copy id paths destination
  have hconfined : Disk.Confined (miniverse_data_path pf id <+: ·) (copy_miniverse_files pf id paths destination ⟨t, []⟩).2 :=
    keeps_copy id paths destination ⟨t, []⟩ fun _ h => nomatch h
  obtain ⟨new, htouched, hsame⟩ := hframe ⟨t, []⟩
  refine hsame q fun p hp hpq => hq ((hconfined p ?_).trans hpq)
  rw [htouched]
  exact List.mem_append_right _ hp

/-! ## Same outcomes -/

variable {nginx : Nginx pf} {id : Uuid4} {r : ReadRequest} {f f' : FileSystem pf}

theorem outcome_eq {answer : Except PyError (Answer α)} {d : Disk α}
    (h : r.run nginx f.times id ⟨f.tree, []⟩ = (answer, d)) : r.outcome nginx id f = (answer, d.tree) := by
  rw [ReadRequest.outcome, h]

/-- Files made inside are made in both trees. -/
theorem Created.transfer {t t' u u' : FileTree α} (h : t.inside root = t'.inside root) (hu : u.inside root = u'.inside root)
    (hoff : ∀ q, ¬ root <+: q → u.get q = t.get q) {x : α} (hx : Created t u x) : Created t' u' x := by
  obtain ⟨p, hnew, hget⟩ := hx
  have hin : root <+: p := by
    by_contra hout
    rw [hoff p hout, FileTree.exists_eq_false.mp hnew] at hget
    cases hget
  exact ⟨p, (FileTree.exists_congr h hin).symm.trans hnew, (FileTree.get_congr hu hin).symm.trans hget⟩

theorem not_created_self {t : FileTree α} {x : α} : ¬ Created t t x := by
  rintro ⟨p, hnew, hget⟩
  rw [FileTree.exists_eq_false.mp hnew] at hget
  cases hget

/-- Requests that leave the trees alone lead to the same exactly when they are answered in the same way. -/
theorem sameOutcome_iff_of_unchanged (hagree : f.Agree (miniverse_data_path pf id) f') {a a' : Except PyError (Answer α)}
    (h : r.outcome nginx id f = (a, f.tree)) (h' : r.outcome nginx id f' = (a', f'.tree)) :
    SameOutcome nginx id r f f' ↔ SameAnswer a a' := by
  constructor
  · rintro ⟨hanswer, _, _⟩
    rwa [h, h'] at hanswer
  · intro hanswer
    refine ⟨?_, ?_, fun x => ?_⟩
    · rwa [h, h']
    · rw [h, h']
      exact hagree.tree
    · rw [h, h']
      exact iff_of_false not_created_self not_created_self

/-- A request that looks and works only inside leads to the same. -/
theorem SameOutcome.of_alike (hagree : f.Agree (miniverse_data_path pf id) f')
    (htimes : r.run nginx f.times id = r.run nginx f'.times id)
    (halike : (r.run nginx f.times id).Alike (Disk.SameInside (miniverse_data_path pf id)))
    (hoff : ∀ t q, ¬ miniverse_data_path pf id <+: q → (r.run nginx f.times id ⟨t, []⟩).2.tree.get q = t.get q) :
    SameOutcome nginx id r f f' := by
  obtain ⟨hanswer, hinside⟩ := halike ⟨f.tree, []⟩ ⟨f'.tree, []⟩ hagree.tree
  have hrun' : r.outcome nginx id f' =
      ((r.run nginx f.times id ⟨f'.tree, []⟩).1, (r.run nginx f.times id ⟨f'.tree, []⟩).2.tree) := by
    rw [ReadRequest.outcome, ← htimes]
  have hrun : r.outcome nginx id f = ((r.run nginx f.times id ⟨f.tree, []⟩).1, (r.run nginx f.times id ⟨f.tree, []⟩).2.tree) := rfl
  refine ⟨?_, ?_, fun x => ?_⟩
  · rw [hrun, hrun']
    exact Or.inl hanswer
  · rw [hrun, hrun']
    exact hinside
  · rw [hrun, hrun']
    exact ⟨Created.transfer hagree.tree hinside (hoff f.tree), Created.transfer hagree.tree.symm hinside.symm (hoff f'.tree)⟩

theorem sameOutcome_list (hagree : f.Agree (miniverse_data_path pf id) f') (user_path : PurePath) :
    SameOutcome nginx id (.list user_path) f f' := by
  refine SameOutcome.of_alike hagree ?_ ((alike_list f.times id user_path).bind fun _ => Eff.Alike.pure _) fun t q _ => ?_
  · simp only [ReadRequest.run, list_times id user_path hagree.times]
  · have hsame : (list_miniverse_files pf f.times id user_path : Fs α _).Within (· = ·) :=
      (Eff.Within.ofExcept _).bind fun _ => (Disk.within_look _).bind fun _ => (Eff.Within.raiseIf _ _).bind fun _ =>
        (Disk.within_look _).bind fun _ => (Eff.Within.pure _).ite (Disk.within_look _)
    have hrun := (hsame.bind fun files => Eff.Within.pure (Answer.listing files : Answer α)) ⟨t, []⟩
    exact congrArg (fun d : Disk α => d.tree.get q) hrun.symm

theorem sameOutcome_content (hagree : f.Agree (miniverse_data_path pf id) f') (path : PurePath) :
    SameOutcome nginx id (.content path) f f' := by
  refine SameOutcome.of_alike hagree rfl ((alike_content id path).bind fun _ => Eff.Alike.pure _) fun t q _ => ?_
  have hsame : (get_file_content pf id path : Fs α α).Within (· = ·) := by
    refine (Eff.Within.ofExcept _).bind fun _ => (Disk.within_look _).bind fun _ => (Eff.Within.raiseIf _ _).bind fun _ => ?_
    refine (Disk.within_look _).bind fun _ => Eff.Within.ite ?_ (Eff.Within.raise _)
    exact (Disk.within_readFile _).bind fun _ => (Eff.Within.raiseIf _ _).bind fun _ => Eff.Within.pure _
  have hrun := (hsame.bind fun x => Eff.Within.pure (Answer.content x)) ⟨t, []⟩
  exact congrArg (fun d : Disk α => d.tree.get q) hrun.symm

theorem sameOutcome_copy (hagree : f.Agree (miniverse_data_path pf id) f') (paths : List PurePath) (destination : PurePath) :
    SameOutcome nginx id (.copy paths destination) f f' := by
  refine SameOutcome.of_alike hagree rfl ((alike_copy id paths destination).bind fun _ => Eff.Alike.pure _) fun t q hq => ?_
  have hoff := copy_off id paths destination t hq
  rcases hrun : copy_miniverse_files pf id paths destination ⟨t, []⟩ with ⟨e | _, d⟩
  · rw [hrun] at hoff
    rw [ReadRequest.run, Eff.bind_run_error hrun]
    exact hoff
  · rw [hrun] at hoff
    rw [ReadRequest.run, Eff.bind_run_ok hrun]
    exact hoff

/-! ## Downloads -/

/-- A download is refused whatever the tree is, or its response is made from the tree. -/
theorem download_cases (pf : Platform α) (own : Role) (id : Uuid4) (paths : String) :
    (∃ e, (∀ d, FilesController.download_files pf own id paths d = (.error e, d)) ∧ ∀ safe_paths, ¬ own < .moderator →
      transform_safe_miniverse_files pf id (selectedPaths paths) = .ok safe_paths → safe_paths = []) ∨
    ∃ safe_paths, ¬ own < .moderator ∧ transform_safe_miniverse_files pf id (selectedPaths paths) = .ok safe_paths ∧
      ∀ d, FilesController.download_files pf own id paths d = (.ok (download_files pf d.tree safe_paths), d) := by
  have hhandler (d : Disk α) : FilesController.download_files pf own id paths d = (do
      Eff.raiseIf (own < .moderator) (.notAuthorized "You are not authorized to view files in this miniverse")
      let safe_paths ← Eff.ofExcept (transform_safe_miniverse_files pf id (selectedPaths paths))
      Eff.raiseIf (safe_paths.length = 0) (.notFound "Dossier vide")
      Disk.look fun t => download_files pf t safe_paths : Fs α Response) d := rfl
  by_cases hown : own < .moderator
  · refine Or.inl ⟨.notAuthorized "You are not authorized to view files in this miniverse", fun d => ?_, fun _ h => absurd hown h⟩
    rw [hhandler, decide_eq_true hown, Eff.raiseIf_true_bind]
  · rcases hsafe : transform_safe_miniverse_files pf id (selectedPaths paths) with e | safe_paths
    · refine Or.inl ⟨e, fun d => ?_, fun _ _ h => by cases h⟩
      rw [hhandler, decide_eq_false hown, Eff.raiseIf_false_bind, hsafe, Eff.ofExcept_error_bind]
    · by_cases hnil : safe_paths = []
      · refine Or.inl ⟨.notFound "Dossier vide", fun d => ?_, fun _ _ h => by cases h; exact hnil⟩
        rw [hhandler, decide_eq_false hown, Eff.raiseIf_false_bind, hsafe, Eff.ofExcept_ok_bind, hnil]
        rfl
      · refine Or.inr ⟨safe_paths, hown, rfl, fun d => ?_⟩
        have hlength : decide (safe_paths.length = 0) = false := decide_eq_false fun h => hnil (List.length_eq_zero_iff.mp h)
        rw [hhandler, decide_eq_false hown, Eff.raiseIf_false_bind, hsafe, Eff.ofExcept_ok_bind, hlength, Eff.raiseIf_false_bind]
        rfl

/-- The lines of a manifest: one for each listed file, and what newlines in names add. -/
theorem mem_manifest_lines {t : FileTree α} {paths : List Loc} {line : List Char} :
    (∃ text ∈ (manifest pf t paths).map String.toList, line ∈ text.splitOn '\n') ↔
      (∃ path ∈ paths, ∃ f ∈ listedFiles t path,
        line = lineStart pf f ++ ((relativePosix path.parent f.1).toList.splitOn '\n').headD []) ∨
      ForgedLine false t paths line := by
  have hsplit (path : Loc) (f : Loc × α) : (add_to_manifest pf path.parent f.1 (pf.size f.2)).toList.splitOn '\n' =
      (lineStart pf f ++ ((relativePosix path.parent f.1).toList.splitOn '\n').headD []) ::
        ((relativePosix path.parent f.1).toList.splitOn '\n').tail := by
    rw [toList_add_to_manifest, splitOn_append_left (newline_not_mem_lineStart f)]
    have hne := List.splitOn_ne_nil '\n' (relativePosix path.parent f.1).toList
    cases hs : (relativePosix path.parent f.1).toList.splitOn '\n' with
    | nil => exact absurd hs hne
    | cons a as => rfl
  simp only [manifest, List.map_flatMap, List.map_map, List.mem_flatMap, List.mem_map, Function.comp_apply, ForgedLine]
  constructor
  · rintro ⟨_, ⟨path, hpath, f, hf, rfl⟩, hline⟩
    rw [hsplit] at hline
    rcases List.mem_cons.mp hline with rfl | hline
    · exact Or.inl ⟨path, hpath, f, hf, rfl⟩
    · exact Or.inr ⟨path, hpath, f, hf, hline, rfl⟩
  · rintro (⟨path, hpath, f, hf, rfl⟩ | ⟨path, hpath, f, hf, hline, _⟩)
    · exact ⟨_, ⟨path, hpath, f, hf, rfl⟩, by rw [hsplit]; exact List.mem_cons_self⟩
    · exact ⟨_, ⟨path, hpath, f, hf, rfl⟩, by rw [hsplit]; exact List.mem_cons_of_mem _ hline⟩

theorem forgedLine_iff {passes_empty : Bool} {t : FileTree α} {paths : List Loc} {line : List Char} :
    ForgedLine passes_empty t paths line ↔ ForgedLine false t paths line ∧ (passes_empty && line.isEmpty) = false := by
  constructor
  · rintro ⟨path, hpath, f, hf, hline, hempty⟩
    exact ⟨⟨path, hpath, f, hf, hline, rfl⟩, hempty⟩
  · rintro ⟨⟨path, hpath, f, hf, hline, _⟩, hempty⟩
    exact ⟨path, hpath, f, hf, hline, hempty⟩

/-- The entries that are read from a manifest: one for each listed file, and the added lines. -/
theorem forall_readManifest_iff {t : FileTree α} {paths : List Loc} {passes_empty : Bool} {P : ManifestEntry → Prop}
    (hlisted : ∀ path ∈ paths, ∀ f ∈ listedFiles t path, ∀ name, ∃ e, readEntry (lineStart pf f ++ name) = some e ∧ P e) :
    (∀ entries, readManifest passes_empty (archive_response pf t paths).content = some entries → ∀ e ∈ entries, P e) ↔
      ((∀ line, ForgedLine passes_empty t paths line → ∃ e, readEntry line = some e) →
        ∀ line e, ForgedLine passes_empty t paths line → readEntry line = some e → P e) := by
  by_cases hnil : (manifest pf t paths).map String.toList = []
  · -- no file is listed, and the manifest is an empty line
    have hnone (line : List Char) : ¬ ForgedLine passes_empty t paths line := fun hline => by
      obtain ⟨text, htext, _⟩ := (@mem_manifest_lines α pf t paths line).mpr (Or.inr (forgedLine_iff.mp hline).1)
      rw [hnil] at htext
      cases htext
    refine iff_of_true (fun entries hread e he => ?_) fun _ line e hline => absurd hline (hnone line)
    have hlines : readLines (['\n'].intercalate [] ++ ['\n']) = some [[]] := by decide
    rw [readManifest, archive_content, hnil, hlines, Option.bind_some] at hread
    obtain ⟨line, hline, hentry⟩ := (mem_mapM hread).2 e he
    rw [List.mem_singleton.mp (List.mem_filter.mp hline).1] at hentry
    cases hentry
  · have hread : readManifest passes_empty (archive_response pf t paths).content =
        ((((manifest pf t paths).map String.toList).flatMap (·.splitOn '\n')).filter fun line =>
          !(passes_empty && line.isEmpty)).mapM readEntry := by
      rw [readManifest, archive_content, readLines_intercalate hnil, Option.bind_some]
    have hkept (path : Loc) (f : Loc × α) : (passes_empty && (lineStart pf f ++
        ((relativePosix path.parent f.1).toList.splitOn '\n').headD []).isEmpty) = false := by
      simp [lineStart]
    have hmem (line : List Char) : line ∈ (((manifest pf t paths).map String.toList).flatMap (·.splitOn '\n')).filter
        (fun line => !(passes_empty && line.isEmpty)) ↔
          (∃ path ∈ paths, ∃ f ∈ listedFiles t path,
            line = lineStart pf f ++ ((relativePosix path.parent f.1).toList.splitOn '\n').headD []) ∨
          ForgedLine passes_empty t paths line := by
      rw [List.mem_filter, List.mem_flatMap, mem_manifest_lines, @forgedLine_iff α passes_empty, Bool.not_eq_true']
      constructor
      · rintro ⟨hline | hline, hempty⟩
        · exact Or.inl hline
        · exact Or.inr ⟨hline, hempty⟩
      · rintro (⟨path, hpath, f, hf, rfl⟩ | ⟨hline, hempty⟩)
        · exact ⟨Or.inl ⟨path, hpath, f, hf, rfl⟩, hkept path f⟩
        · exact ⟨Or.inr hline, hempty⟩
    rw [hread, forall_mapM_iff]
    simp only [hmem]
    constructor
    · intro hall hreadable line e hline hentry
      refine hall ?_ line (Or.inr hline) e hentry
      rintro line (⟨path, hpath, f, hf, rfl⟩ | hline)
      · obtain ⟨e, he, _⟩ := hlisted path hpath f hf _
        exact ⟨e, he⟩
      · exact hreadable line hline
    · rintro hall hreadable line (⟨path, hpath, f, hf, rfl⟩ | hline) e hentry
      · obtain ⟨e', he', hsame⟩ := hlisted path hpath f hf _
        rw [he'] at hentry
        exact Option.some.inj hentry ▸ hsame
      · exact hall (fun line hline => hreadable line (Or.inr hline)) line e hline hentry

/-- What the server sends is the same exactly when it has the same for a file by itself, or for the added lines. -/
theorem received_iff {t t' : FileTree α} {paths : List Loc} (h : t.inside root = t'.inside root)
    (hdata : pf.DATA_PATH ++ ["miniverses"] <+: root) (hpaths : ∀ path ∈ paths, root <+: path) :
    received nginx t (download_files pf t paths) = received nginx t' (download_files pf t paths) ↔ SameServed nginx t t' paths := by
  by_cases hsingle : ∃ path, paths = [path] ∧ t.isFile path = true
  · obtain ⟨path, rfl, hfile⟩ := hsingle
    have hreceived (u : FileTree α) : received nginx u (download_files pf t [path]) =
        some [(("attachment; filename=\"" ++ path.name ++ "\"").toList,
          nginx.serves u (decodedPath (utf8 (internal_path pf path).toList)))] := by
      rw [download_files, if_pos hfile]
      rfl
    rw [hreceived, hreceived]
    constructor
    · intro hsame
      refine ⟨fun path' hpath _ => ?_, fun hnot => ?_⟩
      · rw [← List.singleton_inj.mp hpath]
        simpa using hsame
      · rw [hnot path rfl] at hfile
        cases hfile
    · intro hserved
      rw [hserved.single path rfl hfile]
  · have hnot (path : Loc) (hpath : paths = [path]) : t.isFile path = false := by
      by_contra hfile
      exact hsingle ⟨path, hpath, by simpa using hfile⟩
    have hresponse : download_files pf t paths = archive_response pf t paths := by
      unfold download_files
      split
      · rw [hnot _ rfl, if_neg Bool.false_ne_true]
      · rfl
    have hreceived (u : FileTree α) : received nginx u (archive_response pf t paths) =
        (readManifest nginx.passes_empty (archive_response pf t paths).content).map fun entries =>
          entries.map fun e => (e.name, nginx.serves u e.location) := rfl
    have hentries : received nginx t (archive_response pf t paths) = received nginx t' (archive_response pf t paths) ↔
        ∀ entries, readManifest nginx.passes_empty (archive_response pf t paths).content = some entries →
          ∀ e ∈ entries, nginx.serves t e.location = nginx.serves t' e.location := by
      rw [hreceived, hreceived]
      cases readManifest nginx.passes_empty (archive_response pf t paths).content with
      | none => simp
      | some entries => simp [List.map_inj_left]
    rw [hresponse, hentries, forall_readManifest_iff]
    · refine ⟨fun hall => ⟨fun path hpath hfile => ?_, fun _ => hall⟩, fun hserved => hserved.archive hnot⟩
      exact absurd ⟨path, hpath, hfile⟩ hsingle
    · -- the locations of the listed files are inside
      intro path hpath f hf name
      obtain ⟨hbelow, hget⟩ := mem_listedFiles.mp hf
      have hin : root <+: f.1 := (hpaths path hpath).trans hbelow
      have hnames := FileTree.isName_of_exists (FileTree.exists_iff.mpr ⟨_, hget⟩)
      refine ⟨_, readEntry_lineStart f name, ?_⟩
      rw [nginx.internal t f.1 (hdata.trans hin) hnames, nginx.internal t' f.1 (hdata.trans hin) hnames, fileAt, fileAt,
        FileTree.get_congr h hin]

theorem sameOutcome_download_iff (hagree : f.Agree (miniverse_data_path pf id) f') (own : Role) (paths : String) :
    SameOutcome nginx id (.download own paths) f f' ↔ (ReadRequest.download own paths).SameOutside nginx id f.tree f'.tree := by
  have hdata : pf.DATA_PATH ++ ["miniverses"] <+: miniverse_data_path pf id := by
    simp [miniverse_data_path, get_miniverse_path, List.append_assoc]
  rcases download_cases pf own id paths with ⟨e, hrun, hnone⟩ | ⟨safe_paths, hown, hsafe, hrun⟩
  · have houtcome (g : FileSystem pf) : (ReadRequest.download own paths).outcome nginx id g = (.error e, g.tree) :=
      outcome_eq (d := ⟨g.tree, []⟩) (Eff.bind_run_error (hrun _) _)
    rw [sameOutcome_iff_of_unchanged hagree (houtcome f) (houtcome f')]
    refine iff_of_true (Or.inl rfl) fun hown safe_paths hsafe => ?_
    rw [hnone safe_paths hown hsafe]
    refine ⟨fun path hpath => absurd hpath.symm (List.cons_ne_nil _ _), ?_⟩
    rintro _ _ line e ⟨path, hpath, _⟩
    cases hpath
  · have hin := safe_user_paths_below (miniverse_data_path_ne id) hsafe
    have hresponse : download_files pf f'.tree safe_paths = download_files pf f.tree safe_paths :=
      (download_files_congr hagree.tree hin).symm
    have houtcome : (ReadRequest.download own paths).outcome nginx id f =
        (.ok (.files (received nginx f.tree (download_files pf f.tree safe_paths))), f.tree) :=
      outcome_eq (d := ⟨f.tree, []⟩) (Eff.bind_run_ok (hrun _) _)
    have houtcome' : (ReadRequest.download own paths).outcome nginx id f' =
        (.ok (.files (received nginx f'.tree (download_files pf f.tree safe_paths))), f'.tree) := by
      rw [← hresponse]
      exact outcome_eq (d := ⟨f'.tree, []⟩) (Eff.bind_run_ok (hrun _) _)
    have houtside : (ReadRequest.download own paths).SameOutside nginx id f.tree f'.tree ↔
        SameServed nginx f.tree f'.tree safe_paths := by
      refine ⟨fun h => h hown safe_paths hsafe, fun h _ safe_paths' hsafe' => ?_⟩
      rw [hsafe] at hsafe'
      exact Except.ok.inj hsafe' ▸ h
    rw [houtside, ← received_iff hagree.tree hdata hin, sameOutcome_iff_of_unchanged hagree houtcome houtcome']
    constructor
    · rintro (hsame | ⟨_, _, h, _⟩)
      · simpa using hsame
      · cases h
    · intro hsame
      rw [hsame]
      exact Or.inl rfl

/-! ## Archives -/

/-- Two archives have the same entries exactly when the same is found. -/
theorem entries_eq_iff {t t' : FileTree α} {paths : List PurePath} :
    paths.flatMap (zip_entries pf t) = paths.flatMap (zip_entries pf t') ↔ found pf t paths = found pf t' paths := by
  rw [flatMap_zip_entries, flatMap_zip_entries]
  exact ⟨map_names_injective isComponent_found isComponent_found, congrArg _⟩

/-- One new file. -/
theorem created_iff {t u : FileTree α} {archive : Loc} {z x : α} (hfree : t.exists archive = false)
    (hget : ∀ q, u.get q = if q = archive then some (.file z) else t.get q) : Created t u x ↔ x = z := by
  constructor
  · rintro ⟨p, hnew, hp⟩
    rw [hget, FileTree.exists_eq_false.mp hnew] at hp
    by_cases heq : p = archive
    · rw [if_pos heq] at hp
      exact (Node.file.inj (Option.some.inj hp)).symm
    · rw [if_neg heq] at hp
      cases hp
  · rintro rfl
    exact ⟨archive, hfree, by rw [hget, if_pos rfl]⟩

section Archives

variable {paths : List PurePath} {files : List Loc} {parent : Loc}

/-- Archives with the same entries leave the same inside. -/
theorem inside_compress {t t' : FileTree α} (h : t.inside (miniverse_data_path pf id) = t'.inside (miniverse_data_path pf id))
    (hsafe : safe_user_paths (miniverse_data_path pf id) paths = .ok files) (hne : files ≠ [])
    (hparent : ∀ file ∈ files, file.parent = parent) (hdir : t.isDir parent = true) (hfound : found pf t paths = found pf t' paths) :
    (compress_miniverse_files pf id paths ⟨t, []⟩).2.tree.inside (miniverse_data_path pf id) =
      (compress_miniverse_files pf id paths ⟨t', []⟩).2.tree.inside (miniverse_data_path pf id) := by
  have hone := parents_eq hne hparent
  rw [compress_run ⟨t, []⟩ hsafe hone, compress_run ⟨t', []⟩ hsafe hone]
  by_cases hin : miniverse_data_path pf id <+: parent
  · have hbelow : miniverse_data_path pf id <+: parent ++ [destination_name files] := hin.trans (List.prefix_append _ _)
    have hother : parent ++ [destination_name files] ≠ miniverse_data_path pf id := fun heq =>
      Loc.concat_not_prefix _ _ (heq ▸ hin)
    have hroot : t.exists (miniverse_data_path pf id) = true := FileTree.exists_above hin (FileTree.exists_of_isDir hdir)
    have hentries := entries_eq_iff.mpr hfound
    have hbelow' := (change_path_name_below (t := t) hbelow hother).1
    rw [← change_path_name_congr h hbelow hother, ← hentries]
    exact (Disk.alike_write (ε := PyError) hbelow' _ ⟨t, []⟩ ⟨t', []⟩ ⟨hroot, h⟩).2.2
  · -- both archives are next to the data directory
    obtain ⟨_, rfl, harchive⟩ := archive_next_to (safe_user_paths_below (miniverse_data_path_ne id) hsafe) hne hparent hin
    have hoff (u : FileTree α) : u.inside (miniverse_data_path pf id) =
        ((Disk.write (change_path_name_if_exists u (get_miniverse_path pf id ++ [destination_name files]))
          (pf.zipstream (paths.flatMap (zip_entries pf u))) : Fs α Unit) ⟨u, []⟩).2.tree.inside (miniverse_data_path pf id) := by
      obtain ⟨c, _, hc, heq⟩ := harchive u
      rw [heq]
      exact Disk.sameInside_write (not_prefix_next_to hc) _ ⟨u, []⟩
    rw [← hoff, ← hoff, h]

theorem outcome_compress_fails (nginx : Nginx pf) (hsafe : safe_user_paths (miniverse_data_path pf id) paths = .ok files)
    (hne : files ≠ []) (hparent : ∀ file ∈ files, file.parent = parent) (hdir : f.tree.isDir parent = false) :
    ∃ e, (ReadRequest.compress paths).outcome nginx id f = (.error (.os e), f.tree) := by
  obtain ⟨e, hrun⟩ := compress_fails (d := ⟨f.tree, []⟩) hsafe hne hparent hdir
  exact ⟨e, outcome_eq (d := ⟨f.tree, []⟩) (Eff.bind_run_error hrun _)⟩

/-- One file is made, with what the process finds. -/
theorem outcome_compress_writes (nginx : Nginx pf) (hsafe : safe_user_paths (miniverse_data_path pf id) paths = .ok files)
    (hne : files ≠ []) (hparent : ∀ file ∈ files, file.parent = parent) (hdir : f.tree.isDir parent = true) :
    (ReadRequest.compress paths).outcome nginx id f = (.ok .done, (compress_miniverse_files pf id paths ⟨f.tree, []⟩).2.tree) ∧
      ∀ x, Created f.tree (compress_miniverse_files pf id paths ⟨f.tree, []⟩).2.tree x ↔
        x = pf.zipstream (paths.flatMap (zip_entries pf f.tree)) := by
  obtain ⟨d, archive, hrun, _, hfree, hget⟩ := compress_writes (d := ⟨f.tree, []⟩) hsafe hne hparent hdir
  rw [hrun]
  exact ⟨outcome_eq (Eff.bind_run_ok hrun _), fun x => created_iff hfree hget⟩

/-- When both archives are made, they are the same exactly when the process finds the same. -/
theorem sameOutcome_archives_iff (hzip : ReadsBack pf) (hagree : f.Agree (miniverse_data_path pf id) f')
    (hsafe : safe_user_paths (miniverse_data_path pf id) paths = .ok files) (hne : files ≠ [])
    (hparent : ∀ file ∈ files, file.parent = parent) (hdir : f.tree.isDir parent = true) (hdir' : f'.tree.isDir parent = true) :
    SameOutcome nginx id (.compress paths) f f' ↔ found pf f.tree paths = found pf f'.tree paths := by
  obtain ⟨houtcome, hcreated⟩ := outcome_compress_writes nginx hsafe hne hparent hdir
  obtain ⟨houtcome', hcreated'⟩ := outcome_compress_writes nginx hsafe hne hparent hdir'
  constructor
  · intro hsame
    have hmade := hsame.created (pf.zipstream (paths.flatMap (zip_entries pf f.tree)))
    rw [houtcome, houtcome', hcreated, hcreated'] at hmade
    have hroot : ∀ c ∈ miniverse_data_path pf id, c ≠ ".." := miniverse_data_path_ne id
    exact entries_eq_iff.mp
      (hzip.injective (archiveName_selected hroot hsafe f.cwd_dir) (archiveName_selected hroot hsafe f'.cwd_dir) (hmade.mp rfl))
  · intro hfound
    refine ⟨?_, ?_, fun x => ?_⟩
    · rw [houtcome, houtcome']
      exact Or.inl rfl
    · rw [houtcome, houtcome']
      exact inside_compress hagree.tree hsafe hne hparent hdir hfound
    · rw [houtcome, houtcome', hcreated, hcreated', entries_eq_iff.mpr hfound]

end Archives

theorem sameOutcome_compress_iff (hzip : ReadsBack pf) (hagree : f.Agree (miniverse_data_path pf id) f') (paths : List PurePath) :
    SameOutcome nginx id (.compress paths) f f' ↔ (ReadRequest.compress paths).SameOutside nginx id f.tree f'.tree := by
  rcases hsafe : safe_user_paths (miniverse_data_path pf id) paths with e | files
  · have houtcome (g : FileSystem pf) : (ReadRequest.compress paths).outcome nginx id g = (.error e, g.tree) := by
      refine outcome_eq (d := ⟨g.tree, []⟩) (Eff.bind_run_error ?_ _)
      rw [compress_miniverse_files, hsafe, Eff.ofExcept_error_bind]
    rw [sameOutcome_iff_of_unchanged hagree (houtcome f) (houtcome f')]
    refine iff_of_true (Or.inl rfl) fun files _ hfiles => ?_
    rw [hsafe] at hfiles
    cases hfiles
  · by_cases hone : ∃ parent, files ≠ [] ∧ ∀ file ∈ files, file.parent = parent
    · obtain ⟨parent, hne, hparent⟩ := hone
      have houtside : (ReadRequest.compress paths).SameOutside nginx id f.tree f'.tree ↔
          f.tree.isDir parent = f'.tree.isDir parent ∧
            (f.tree.isDir parent = true → found pf f.tree paths = found pf f'.tree paths) := by
        refine ⟨fun h => h files parent hsafe hparent hne, fun h files' parent' hsafe' hparent' _ => ?_⟩
        rw [hsafe] at hsafe'
        obtain rfl := Except.ok.inj hsafe'
        obtain ⟨file, hfile⟩ := List.exists_mem_of_ne_nil files hne
        rwa [← hparent' file hfile, hparent file hfile]
      rw [houtside]
      cases hdir : f.tree.isDir parent <;> cases hdir' : f'.tree.isDir parent
      · obtain ⟨e, houtcome⟩ := outcome_compress_fails nginx hsafe hne hparent hdir
        obtain ⟨e', houtcome'⟩ := outcome_compress_fails nginx hsafe hne hparent hdir'
        rw [sameOutcome_iff_of_unchanged hagree houtcome houtcome']
        exact iff_of_true (Or.inr ⟨e, e', rfl, rfl⟩) ⟨rfl, fun h => absurd h Bool.false_ne_true⟩
      · -- only one of the archives is made
        obtain ⟨e, houtcome⟩ := outcome_compress_fails nginx hsafe hne hparent hdir
        have houtcome' := (outcome_compress_writes nginx hsafe hne hparent hdir').1
        refine iff_of_false (fun hsame => ?_) fun h => absurd h.1 Bool.false_ne_true
        have hanswer := hsame.answer
        rw [houtcome, houtcome'] at hanswer
        rcases hanswer with h | ⟨_, _, _, h⟩ <;> cases h
      · have houtcome := (outcome_compress_writes nginx hsafe hne hparent hdir).1
        obtain ⟨e, houtcome'⟩ := outcome_compress_fails nginx hsafe hne hparent hdir'
        refine iff_of_false (fun hsame => ?_) fun h => absurd h.1 Bool.false_ne_true.symm
        have hanswer := hsame.answer
        rw [houtcome, houtcome'] at hanswer
        rcases hanswer with h | ⟨_, _, h, _⟩ <;> cases h
      · rw [sameOutcome_archives_iff hzip hagree hsafe hne hparent hdir hdir']
        exact ⟨fun h => ⟨rfl, fun _ => h⟩, fun h => h.2 rfl⟩
    · -- without a common parent the request is refused
      have houtcome (g : FileSystem pf) : (ReadRequest.compress paths).outcome nginx id g =
          (.error (.valueError "Files to compress must have same parent"), g.tree) := by
        refine outcome_eq (d := ⟨g.tree, []⟩) (Eff.bind_run_error (compress_raises _ hsafe fun parent h => hone ⟨parent, ?_, ?_⟩) _)
        · rintro rfl
          cases h
        · exact forall_parent_eq h
      rw [sameOutcome_iff_of_unchanged hagree (houtcome f) (houtcome f')]
      refine iff_of_true (Or.inl rfl) fun files' parent hsafe' hparent hne => ?_
      rw [hsafe] at hsafe'
      obtain rfl := Except.ok.inj hsafe'
      exact absurd ⟨parent, hne, hparent⟩ hone

end Backend
