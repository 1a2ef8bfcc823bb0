import Miniverse.Files.Lemmas.Kept
import Miniverse.Lib.Subtree

/-!
# Copies

`copytree` lists a directory, makes the target, and then copies what it listed, one entry after the other. When the target
is not below what is copied, or directly in it, the copy is exact. Otherwise it comes upon its own work.
-/

namespace Backend

open Lib

variable {α : Type} {pf : Platform α}

namespace Fs

/-! ## One call each -/

theorem makedirs_new {p : Loc} {c : String} {d : Disk α} (hdir : d.tree.isDir p = true)
    (hnew : d.tree.exists (p ++ [c]) = false) (hname : IsName c) :
    ∃ d', (makedirs (p ++ [c]) : Fs α Unit) d = (.ok (), d') ∧
      ∀ q, d'.tree.get q = if q = p ++ [c] then some .dir else d.tree.get q := by
  have hparent : d.tree.isDir (p ++ [c]).parent = true := by rwa [Loc.parent_concat]
  obtain ⟨t, ht⟩ := FileTree.mkdir_succeeds hnew hparent (by rwa [Loc.name_concat])
  refine ⟨⟨t, d.touched ++ [p ++ [c]]⟩, ?_, (FileTree.mkdir_ok ht).2.2⟩
  have hrev : (p ++ [c]).reverse = c :: p.reverse := by simp
  have hback : (c :: p.reverse).reverse = p ++ [c] := by simp
  rw [makedirs, hrev, makedirsRev, Disk.look, Eff.read_bind_run, List.reverse_reverse, FileTree.exists_of_isDir hdir, hback]
  have hmk : (Disk.mkdir (p ++ [c]) : Fs α Unit) d = (.ok (), ⟨t, d.touched ++ [p ++ [c]]⟩) := Disk.call_ok ht
  exact hmk

theorem scandir_run {p : Loc} {d : Disk α} (hdir : d.tree.isDir p = true) : (scandir p : Fs α _) d =
    (.ok ((d.tree.children p).map fun c => (c, d.tree.isDir (p ++ [c]))), d) := by
  rw [scandir, Disk.look, Eff.read_bind_run, hdir, if_pos rfl]
  rfl

theorem copy2_exact {src dst : Loc} {x : α} {d : Disk α} (hsrc : d.tree.get src = some (.file x))
    (hfree : d.tree.exists dst = false) (hdir : d.tree.isDir dst.parent = true) (hname : IsName dst.name) :
    ∃ d', (copy2 src dst : Fs α Unit) d = (.ok (), d') ∧ FileTree.Copied src dst d.tree d'.tree := by
  obtain ⟨d', hrun, hget⟩ := Disk.write_new (ε := PyError) x hfree hdir hname
  have hnotdir : d.tree.isDir dst = false := by simp [FileTree.isDir, FileTree.exists_eq_false.mp hfree]
  have hne : src ≠ dst := by
    rintro rfl
    rw [FileTree.exists_eq_false.mp hfree] at hsrc
    cases hsrc
  have hread : (Disk.readFile src : Fs α α) d = (.ok x, d) := by simp only [Disk.readFile, hsrc]
  refine ⟨d', ?_, fun r => ?_, fun q hq => ?_⟩
  · rw [copy2, Disk.look, Eff.read_bind_run, hnotdir, if_neg Bool.false_ne_true, decide_eq_false hne,
      Eff.raiseIf_false_bind, Eff.bind_run_ok hread]
    exact hrun
  · cases r with
    | nil => rw [List.append_nil, List.append_nil, hget, if_pos rfl, hsrc]
    | cons c r =>
        rw [hget, if_neg (by simp)]
        have hnone : ∀ p, d.tree.isDir p = false → d.tree.get (p ++ c :: r) = none := by
          intro p hp
          by_contra hsome
          have hex : d.tree.exists (p ++ c :: r) = true := by
            rwa [← Bool.not_eq_false, FileTree.exists_eq_false]
          rw [FileTree.isDir_above (List.prefix_append p _) (by simp) hex] at hp
          cases hp
        rw [hnone dst hnotdir, hnone src (FileTree.isDir_eq_false_of_isFile (FileTree.isFile_iff.mpr ⟨x, hsrc⟩))]
  · rw [hget, if_neg (Disk.ne_of_not_above hq)]

/-- An entry that is copied without an error leaves the others to be copied. -/
theorem copyEntries_cons {copy : String × Bool → Fs α Unit} {e : String × Bool} {d d₁ : Disk α}
    (h : copy e d = (.ok (), d₁)) (es : List (String × Bool)) : copyEntries copy (e :: es) d = copyEntries copy es d₁ := by
  have hentry : (do copy e; pure false : Fs α Bool) d = (.ok false, d₁) := Eff.bind_run_ok h _
  rw [copyEntries, Eff.bind_run_ok (Eff.attempt_ok hentry _), Eff.bind_run]
  rcases copyEntries copy es d₁ with ⟨_ | _, _⟩ <;> rfl

/-- One entry of the source, copied under its name. -/
def copyEntry (depth : Nat) (src dst : Loc) (e : String × Bool) : Fs α Unit :=
  if e.2 then copytree depth (src ++ [e.1]) (dst ++ [e.1]) else copy2 (src ++ [e.1]) (dst ++ [e.1])

theorem copytree_succ (depth : Nat) (src dst : Loc) : (copytree (depth + 1) src dst : Fs α Unit) = (do
    let entries ← scandir src
    makedirs dst
    let failed ← copyEntries (copyEntry depth src dst) entries
    Eff.raiseIf failed .shutilError) := rfl

/-! ## Exact copies -/

/-- The entries handled so far are copied, and nothing else is. -/
structure PartlyCopied (src dst : Loc) (done : List String) (t t' : FileTree α) : Prop where
  root : t'.get dst = some .dir
  below : ∀ c r, t'.get (dst ++ c :: r) = if c ∈ done then t.get (src ++ c :: r) else none
  outside : ∀ q, ¬ dst <+: q → t'.get q = t.get q

theorem PartlyCopied.nil {src dst : Loc} {t t' : FileTree α} (hfree : t.exists dst = false)
    (hget : ∀ q, t'.get q = if q = dst then some .dir else t.get q) : PartlyCopied src dst [] t t' := by
  refine ⟨by rw [hget, if_pos rfl], fun c r => ?_, fun q hq => ?_⟩
  · rw [hget, if_neg (by simp), if_neg List.not_mem_nil]
    cases h : t.get (dst ++ c :: r) with
    | none => rfl
    | some n => exact absurd (List.prefix_append dst _) (Disk.not_below_free hfree h)
  · rw [hget, if_neg (Disk.ne_of_not_above hq)]

/-- One more entry, copied from a part of the source that the copy does not touch. -/
theorem PartlyCopied.snoc {src dst : Loc} {done : List String} {c : String} {t t' t'' : FileTree α}
    (h : PartlyCopied src dst done t t') (hapart : ∀ r, ¬ dst <+: src ++ c :: r)
    (hcopied : FileTree.Copied (src ++ [c]) (dst ++ [c]) t' t'') : PartlyCopied src dst (done ++ [c]) t t'' := by
  refine ⟨?_, fun c' r => ?_, fun q hq => ?_⟩
  · rw [hcopied.outside dst (Loc.concat_not_prefix dst c)]
    exact h.root
  · by_cases hc : c' = c
    · subst hc
      have hbelow := hcopied.below r
      rw [List.append_assoc, List.append_assoc] at hbelow
      rw [if_pos (List.mem_append_right _ (List.mem_singleton_self c'))]
      exact hbelow.trans (h.outside _ (hapart r))
    · have hout : ¬ dst ++ [c] <+: dst ++ c' :: r := by
        rw [List.prefix_append_right_inj]
        intro hle
        exact hc (List.cons_prefix_cons.mp hle).1.symm
      rw [hcopied.outside _ hout, h.below]
      simp [hc]
  · rw [hcopied.outside q fun hle => hq ((List.prefix_append dst [c]).trans hle)]
    exact h.outside q hq

theorem PartlyCopied.copied {src dst : Loc} {t t' : FileTree α} (hsrc : t.isDir src = true)
    (h : PartlyCopied src dst (t.children src) t t') : FileTree.Copied src dst t t' := by
  refine ⟨fun r => ?_, h.outside⟩
  cases r with
  | nil => rw [List.append_nil, List.append_nil, h.root, FileTree.isDir_iff.mp hsrc]
  | cons c r =>
      rw [h.below]
      split
      · rfl
      · rename_i hc
        rw [FileTree.mem_children, Bool.not_eq_true] at hc
        cases hget : t.get (src ++ c :: r) with
        | none => rfl
        | some n =>
            have hle : src ++ [c] <+: src ++ c :: r := (List.prefix_append_right_inj src).mpr ⟨r, rfl⟩
            exact absurd hle (Disk.not_below_free hc hget)

/-- The loop over the listed entries. -/
theorem copyEntries_exact {copy : String × Bool → Fs α Unit} {src dst : Loc} {t : FileTree α} {names : List String}
    (hstep : ∀ done c rest, names = done ++ c :: rest → ∀ d, PartlyCopied src dst done t (Disk.tree d) →
      ∃ d', copy (c, t.isDir (src ++ [c])) d = (.ok (), d') ∧ PartlyCopied src dst (done ++ [c]) t d'.tree)
    {d : Disk α} (h : PartlyCopied src dst [] t d.tree) :
    ∃ d', copyEntries copy (names.map fun c => (c, t.isDir (src ++ [c]))) d = (.ok false, d') ∧
      PartlyCopied src dst names t d'.tree := by
  have key (rest : List String) : ∀ done d, names = done ++ rest → PartlyCopied src dst done t (Disk.tree d) →
      ∃ d', copyEntries copy (rest.map fun c => (c, t.isDir (src ++ [c]))) d = (.ok false, d') ∧
        PartlyCopied src dst names t d'.tree := by
    induction rest with
    | nil =>
        intro done d hsplit hdone
        rw [List.append_nil] at hsplit
        exact ⟨d, rfl, hsplit ▸ hdone⟩
    | cons c rest ih =>
        intro done d hsplit hdone
        obtain ⟨d₁, hrun, hdone₁⟩ := hstep done c rest hsplit d hdone
        obtain ⟨d', hrest, hall⟩ := ih (done ++ [c]) d₁ (by rw [hsplit, List.append_assoc]; rfl) hdone₁
        refine ⟨d', ?_, hall⟩
        rw [List.map_cons, copyEntries_cons hrun]
        exact hrest
  exact key names [] d rfl h

/-- A directory is copied exactly when the target is free, and not below the source except directly in it. -/
theorem copytree_exact {n : Nat} {src p : Loc} {c₀ : String} {d : Disk α} (hsrc : d.tree.isDir src = true)
    (hfree : d.tree.exists (p ++ [c₀]) = false) (hdir : d.tree.isDir p = true) (hname : IsName c₀)
    (hplace : ¬ src <+: p ∨ src = p) (hheight : d.tree.height src ≤ n) :
    ∃ d', (copytree n src (p ++ [c₀]) : Fs α Unit) d = (.ok (), d') ∧
      FileTree.Copied src (p ++ [c₀]) d.tree d'.tree := by
  induction n generalizing src p c₀ d with
  | zero =>
      have := FileTree.height_le.mp hheight [] (by rwa [List.append_nil])
      exact absurd this (Nat.not_lt_zero _)
  | succ n ih =>
      obtain ⟨d₁, hmk, hget⟩ := makedirs_new hdir hfree hname
      -- the listed entries are not in the target, nor the target in them
      have hlisted : ∀ c ∈ d.tree.children src, ¬ src ++ [c] <+: p ++ [c₀] ∧ ∀ r, ¬ p ++ [c₀] <+: src ++ c :: r := by
        intro c hc
        rw [FileTree.mem_children] at hc
        have hne : ¬ src ++ [c] <+: p ++ [c₀] := by
          intro hle
          rcases List.prefix_concat_iff.mp hle with heq | hle
          · rw [heq, hfree] at hc
            cases hc
          · rcases hplace with hplace | rfl
            · exact hplace ((List.prefix_append src [c]).trans hle)
            · exact Loc.concat_not_prefix _ _ hle
        refine ⟨hne, fun r hle => ?_⟩
        rcases List.prefix_or_prefix_of_prefix hle (show src ++ [c] <+: src ++ c :: r from
          (List.prefix_append_right_inj src).mpr ⟨r, rfl⟩) with hle | hle
        · obtain ⟨node, hnode⟩ := FileTree.exists_iff.mp hc
          exact Disk.not_below_free hfree hnode hle
        · exact hne hle
      have hstep : ∀ done c rest, d.tree.children src = done ++ c :: rest → ∀ d₂,
          PartlyCopied src (p ++ [c₀]) done d.tree (Disk.tree d₂) →
            ∃ d₃, copyEntry n src (p ++ [c₀]) (c, d.tree.isDir (src ++ [c])) d₂ = (.ok (), d₃) ∧
              PartlyCopied src (p ++ [c₀]) (done ++ [c]) d.tree d₃.tree := by
        intro done c rest hsplit d₂ hdone
        have hc : c ∈ d.tree.children src := hsplit ▸ List.mem_append_right done List.mem_cons_self
        have hnotdone : c ∉ done := by
          have hnodup := d.tree.nodup_children src
          rw [hsplit] at hnodup
          exact fun hmem => (List.nodup_append.mp hnodup).2.2 c hmem c List.mem_cons_self rfl
        obtain ⟨hout, hapart⟩ := hlisted c hc
        have hsame : ∀ r, d₂.tree.get (src ++ [c] ++ r) = d.tree.get (src ++ [c] ++ r) := fun r => by
          rw [List.append_assoc]
          exact hdone.outside _ (hapart r)
        have hfree₂ : d₂.tree.exists (p ++ [c₀] ++ [c]) = false := by
          rw [FileTree.exists_eq_false]
          exact (hdone.below c []).trans (if_neg hnotdone)
        have hdir₂ : d₂.tree.isDir (p ++ [c₀]) = true := FileTree.isDir_iff.mpr hdone.root
        have hex := FileTree.mem_children.mp hc
        have hcname : IsName c := FileTree.isName_of_exists hex c (by simp)
        have hself := hsame []
        rw [List.append_nil] at hself
        unfold copyEntry
        cases hisdir : d.tree.isDir (src ++ [c]) with
        | true =>
            have hdepth : d₂.tree.height (src ++ [c]) ≤ n := FileTree.height_le.mpr fun r hr => by
              rw [FileTree.isDir, hsame r, ← FileTree.isDir, List.append_assoc] at hr
              have := FileTree.height_le.mp hheight _ hr
              rw [List.length_append, List.length_singleton] at this
              omega
            have hisdir₂ : d₂.tree.isDir (src ++ [c]) = true := by
              rwa [FileTree.isDir_iff, hself, ← FileTree.isDir_iff]
            obtain ⟨d₃, hrun, hcopied⟩ := ih hisdir₂ hfree₂ hdir₂ hcname (Or.inl hout) hdepth
            exact ⟨d₃, hrun, hdone.snoc hapart hcopied⟩
        | false =>
            rw [FileTree.exists_eq, hisdir, Bool.false_or] at hex
            obtain ⟨x, hx⟩ := FileTree.isFile_iff.mp hex
            obtain ⟨d₃, hrun, hcopied⟩ :=
              copy2_exact (hself.trans hx) hfree₂ (by rwa [Loc.parent_concat]) (by rwa [Loc.name_concat])
            exact ⟨d₃, hrun, hdone.snoc hapart hcopied⟩
      obtain ⟨d', hrun, hall⟩ := copyEntries_exact hstep (PartlyCopied.nil hfree hget)
      refine ⟨d', ?_, hall.copied hsrc⟩
      rw [copytree_succ, Eff.bind_run_ok (scandir_run hsrc), Eff.bind_run_ok hmk, Eff.bind_run_ok hrun]
      rfl

/-! ## What a copy that returned has done -/

/-- What was there is there, and what was a directory is one. -/
def Grows (d d' : Disk α) : Prop :=
  ∀ q, (d.tree.exists q = true → d'.tree.exists q = true) ∧ (d.tree.isDir q = true → d'.tree.isDir q = true)

instance : Std.Refl (Grows (α := α)) := ⟨fun _ _ => ⟨id, id⟩⟩

instance : IsTrans (Disk α) Grows :=
  ⟨fun _ _ _ h₁ h₂ q => ⟨fun h => (h₂ q).1 ((h₁ q).1 h), fun h => (h₂ q).2 ((h₁ q).2 h)⟩⟩

theorem grows_mkdir (p : Loc) : (Disk.mkdir p : Fs α Unit).Within Grows := by
  refine Disk.within_call fun d t ht q => ?_
  obtain ⟨_, _, hget⟩ := FileTree.mkdir_ok ht
  by_cases hq : q = p
  · simp [FileTree.exists, FileTree.isDir, hget, hq]
  · simp [FileTree.exists, FileTree.isDir, hget, hq]

theorem grows_write (p : Loc) (x : α) : (Disk.write p x : Fs α Unit).Within Grows := by
  refine Disk.within_call fun d t ht q => ?_
  obtain ⟨hnotdir, _, hget⟩ := FileTree.write_ok ht
  by_cases hq : q = p
  · subst hq
    simp [FileTree.exists, hget, hnotdir]
  · simp [FileTree.exists, FileTree.isDir, hget, hq]

theorem grows_makedirs (p : Loc) : (makedirs p : Fs α Unit).Within Grows := within_makedirsRev fun q _ => grows_mkdir q

theorem grows_copytree (n : Nat) (src dst : Loc) : (copytree n src dst : Fs α Unit).Within Grows := by
  induction n generalizing src dst with
  | zero => exact Eff.Within.raise _
  | succ n ih =>
      refine (within_scandir src).bind fun es => (grows_makedirs dst).bind fun _ => ?_
      refine (within_copyEntries (fun e => ?_) es).bind fun _ => Eff.Within.raiseIf _ _
      exact (ih _ _).ite (within_copy2 fun q x _ => grows_write q x)

theorem grows_copyEntry (n : Nat) (src dst : Loc) (e : String × Bool) : (copyEntry n src dst e : Fs α Unit).Within Grows :=
  (grows_copytree n _ _).ite (within_copy2 fun q x _ => grows_write q x)

/-- Without an error put aside, every entry was copied. -/
theorem copyEntries_returned {copy : String × Bool → Fs α Unit} (hgrows : ∀ e, (copy e).Within Grows)
    {es : List (String × Bool)} {d d' : Disk α} (h : copyEntries copy es d = (.ok false, d')) :
    ∀ e ∈ es, ∃ d₁ d₂, Grows d d₁ ∧ copy e d₁ = (.ok (), d₂) ∧ Grows d₂ d' := by
  induction es generalizing d with
  | nil => exact fun e he => nomatch he
  | cons e es ih =>
      rw [copyEntries] at h
      obtain ⟨failed, d₁, hfirst, h⟩ := Eff.bind_ok h
      obtain ⟨rest, d₂, hrest, h⟩ := Eff.bind_ok h
      obtain ⟨hfalse, rfl⟩ := Prod.mk.inj h
      obtain ⟨rfl, rfl⟩ : failed = false ∧ rest = false := by simpa using hfalse
      have hcopy : copy e d = (.ok (), d₁) := by
        rcases hrun : copy e d with ⟨err | _, d₃⟩
        · have hraised : (do copy e; pure false : Fs α Bool) d = (.error err, d₃) := Eff.bind_run_error hrun _
          rw [Eff.attempt_error hraised] at hfirst
          split at hfirst <;> cases hfirst
        · have hreturned : (do copy e; pure false : Fs α Bool) d = (.ok false, d₃) := Eff.bind_run_ok hrun _
          rw [Eff.attempt_ok hreturned] at hfirst
          cases hfirst
          rfl
      have hgrows₁ : Grows d d₁ := (hgrows e).of_run hcopy
      have hgrows₂ : Grows d₁ d₂ := (within_copyEntries hgrows es).of_run hrest
      intro e' he'
      rcases List.mem_cons.mp he' with rfl | he'
      · exact ⟨d, d₁, Std.Refl.refl d, hcopy, hgrows₂⟩
      · obtain ⟨d₃, d₄, hbefore, hrun, hafter⟩ := ih hrest e' he'
        exact ⟨d₃, d₄, trans_of Grows hgrows₁ hbefore, hrun, hafter⟩

theorem makedirs_returned {p : Loc} {d d' : Disk α} (h : (makedirs p : Fs α Unit) d = (.ok (), d')) :
    d'.tree.isDir p = true := by
  have hmkdir : ∀ {q : Loc} {d d' : Disk α}, (Disk.mkdir q : Fs α Unit) d = (.ok (), d') → d'.tree.isDir q = true := by
    intro q d d' h
    unfold Disk.mkdir Disk.call at h
    split at h
    · rename_i t ht
      cases h
      rw [FileTree.isDir_iff, (FileTree.mkdir_ok ht).2.2, if_pos rfl]
    · cases h
  rw [makedirs] at h
  rcases hrev : p.reverse with _ | ⟨c, up⟩
  · rw [hrev] at h
    rw [List.reverse_eq_nil_iff.mp hrev]
    exact hmkdir h
  · have hp : (c :: up).reverse = p := by rw [← hrev, List.reverse_reverse]
    rw [hrev, makedirsRev, hp] at h
    obtain ⟨_, d₁, _, h⟩ := Eff.bind_ok h
    dsimp only at h
    split at h
    · obtain ⟨_, _, _, h⟩ := Eff.bind_ok h
      exact hmkdir h
    · exact hmkdir h

/-- A directory was listed before the target was made, and then its entries were copied. -/
theorem copytree_returned {n : Nat} {src dst : Loc} {d d' : Disk α}
    (h : (copytree n src dst : Fs α Unit) d = (.ok (), d')) :
    ∃ m d₁, n = m + 1 ∧ d₁.tree.isDir dst = true ∧ Grows d d₁ ∧ Grows d₁ d' ∧
      ∀ c, d.tree.exists (src ++ [c]) = true → ∃ d₂ d₃, Grows d₁ d₂ ∧
        copyEntry m src dst (c, d.tree.isDir (src ++ [c])) d₂ = (.ok (), d₃) ∧ Grows d₃ d' := by
  cases n with
  | zero => cases h
  | succ m =>
      rw [copytree_succ] at h
      obtain ⟨entries, d₀, hscan, h⟩ := Eff.bind_ok h
      obtain ⟨_, d₁, hmk, h⟩ := Eff.bind_ok h
      obtain ⟨failed, d₂, hentries, h⟩ := Eff.bind_ok h
      obtain ⟨rfl, rfl⟩ := Eff.raiseIf_ok h
      have hlist : d₀ = d ∧ entries = (d.tree.children src).map fun c => (c, d.tree.isDir (src ++ [c])) := by
        cases hdir : d.tree.isDir src with
        | true =>
            rw [scandir_run hdir] at hscan
            cases hscan
            exact ⟨rfl, rfl⟩
        | false =>
            rw [scandir, Disk.look, Eff.read_bind_run, hdir, if_neg Bool.false_ne_true, Disk.look, Eff.read_bind_run] at hscan
            split at hscan <;> cases hscan
      obtain ⟨rfl, rfl⟩ := hlist
      refine ⟨m, d₁, rfl, makedirs_returned hmk, (grows_makedirs dst).of_run hmk,
        (within_copyEntries (grows_copyEntry m src dst) _).of_run hentries, fun c hc => ?_⟩
      exact copyEntries_returned (grows_copyEntry m src dst) hentries _
        (List.mem_map.mpr ⟨c, FileTree.mem_children.mpr hc, rfl⟩)

theorem copy2_returned {src dst : Loc} {d d' : Disk α} (h : (copy2 src dst : Fs α Unit) d = (.ok (), d')) :
    d'.tree.exists dst = true := by
  rw [copy2, Disk.look, Eff.read_bind_run] at h
  obtain ⟨_, d₁, hsame, h⟩ := Eff.bind_ok h
  obtain ⟨-, rfl⟩ := Eff.raiseIf_ok hsame
  obtain ⟨x, d₂, hread, hwrite⟩ := Eff.bind_ok h
  have hgrows : Grows d₁ d₂ := (Disk.within_readFile src).of_run hread
  have hgrows' : Grows d₂ d' := (grows_write _ x).of_run hwrite
  cases hdir : d₁.tree.isDir dst with
  | true => exact (hgrows' dst).1 ((hgrows dst).1 (FileTree.exists_of_isDir hdir))
  | false =>
      rw [hdir, if_neg Bool.false_ne_true] at hwrite
      exact FileTree.exists_iff.mpr ⟨_, Disk.write_returned hwrite⟩

/-- Everything that was at and below the source when the copy began has something at its place in the target. -/
theorem copytree_covers {n : Nat} {src dst : Loc} {d d' : Disk α} (h : (copytree n src dst : Fs α Unit) d = (.ok (), d')) :
    ∀ r, d.tree.exists (src ++ r) = true → d'.tree.exists (dst ++ r) = true := by
  induction n generalizing src dst d d' with
  | zero => cases h
  | succ n ih =>
      obtain ⟨m, d₁, hm, hdst, hgrows, hgrows', hentries⟩ := copytree_returned h
      cases hm
      intro r hr
      cases r with
      | nil =>
          rw [List.append_nil]
          exact (hgrows' dst).1 (FileTree.exists_of_isDir hdst)
      | cons c r =>
          have hsplit : ∀ p : Loc, p ++ c :: r = p ++ [c] ++ r := fun p => by simp
          rw [hsplit] at hr ⊢
          have hc : d.tree.exists (src ++ [c]) = true := by
            by_cases hnil : src ++ [c] = src ++ [c] ++ r
            · rwa [hnil]
            · exact FileTree.exists_of_isDir (FileTree.isDir_above (List.prefix_append _ r) hnil hr)
          obtain ⟨d₂, d₃, hbefore, hrun, hafter⟩ := hentries c hc
          refine (hafter _).1 ?_
          unfold copyEntry at hrun
          cases hdir : d.tree.isDir (src ++ [c]) with
          | true =>
              rw [hdir, if_pos rfl] at hrun
              exact ih hrun r ((hbefore _).1 ((hgrows _).1 hr))
          | false =>
              -- below a file there is nothing
              have hnil : r = [] := by
                by_contra hne
                have habove := FileTree.isDir_above (List.prefix_append (src ++ [c]) r) (by simpa using hne) hr
                rw [hdir] at habove
                cases habove
              rw [hdir, if_neg Bool.false_ne_true] at hrun
              rw [hnil, List.append_nil]
              exact copy2_returned hrun

/-- A copy that returned was not too deep. -/
theorem copytree_height {n : Nat} {src dst : Loc} {d d' : Disk α} (h : (copytree n src dst : Fs α Unit) d = (.ok (), d')) :
    d.tree.height src ≤ n := by
  induction n generalizing src dst d d' with
  | zero => cases h
  | succ n ih =>
      obtain ⟨m, d₁, hm, hdst, hgrows, hgrows', hentries⟩ := copytree_returned h
      cases hm
      refine FileTree.height_le.mpr fun r hr => ?_
      cases r with
      | nil => exact Nat.succ_pos n
      | cons c r =>
          have hsplit : src ++ c :: r = src ++ [c] ++ r := by simp
          rw [hsplit] at hr
          have hdir : d.tree.isDir (src ++ [c]) = true := by
            by_cases hnil : src ++ [c] = src ++ [c] ++ r
            · rwa [hnil]
            · exact FileTree.isDir_above (List.prefix_append _ r) hnil (FileTree.exists_of_isDir hr)
          obtain ⟨d₂, d₃, hbefore, hrun, hafter⟩ := hentries c (FileTree.exists_of_isDir hdir)
          rw [copyEntry, hdir, if_pos rfl] at hrun
          have := FileTree.height_le.mp (ih hrun) r ((hbefore _).2 ((hgrows _).2 hr))
          rw [List.length_cons]
          omega

/-- A copy into a directory strictly below its source copies a part of itself. -/
theorem copytree_nested {n : Nat} {src w : Loc} {c : String} {d d' : Disk α} (hw : w ≠ [])
    (hdir : d.tree.isDir (src ++ w) = true) (h : (copytree n src (src ++ w ++ [c]) : Fs α Unit) d = (.ok (), d')) :
    d'.tree.exists (src ++ w ++ [c] ++ w ++ [c]) = true := by
  obtain ⟨m, d₁, rfl, hdst, hgrows, hgrows', hentries⟩ := copytree_returned h
  cases w with
  | nil => exact absurd rfl hw
  | cons a w =>
      have hsplit : src ++ a :: w = src ++ [a] ++ w := by simp
      have hisdir : d.tree.isDir (src ++ [a]) = true := by
        rw [hsplit] at hdir
        by_cases hnil : src ++ [a] = src ++ [a] ++ w
        · rwa [hnil]
        · exact FileTree.isDir_above (List.prefix_append _ w) hnil (FileTree.exists_of_isDir hdir)
      obtain ⟨d₂, d₃, hbefore, hrun, hafter⟩ := hentries a (FileTree.exists_of_isDir hisdir)
      rw [copyEntry, hisdir, if_pos rfl] at hrun
      -- the target is there when the directory above it is listed
      have hlisted : d₂.tree.exists (src ++ [a] ++ (w ++ [c])) = true := by
        rw [← List.append_assoc, ← hsplit]
        exact (hbefore _).1 (FileTree.exists_of_isDir hdst)
      have hcopied := copytree_covers hrun (w ++ [c]) hlisted
      have hplace : src ++ a :: w ++ [c] ++ a :: w ++ [c] = src ++ a :: w ++ [c] ++ [a] ++ (w ++ [c]) := by simp
      rw [hplace]
      exact (hafter _).1 hcopied

end Fs

/-! ## The sources -/

/-- One new entry in the destination, with the subtree of the source. -/
def CopiedInto (dest src : Loc) (t t' : FileTree α) : Prop :=
  ∃ c, t.exists (dest ++ [c]) = false ∧ FileTree.Copied src (dest ++ [c]) t t'

/-- The sources are copied one after the other, each as it is just before. -/
def CopiedInTurn (pf : Platform α) (dest : Loc) : List Loc → Disk α → Disk α → Prop
  | [], d, d' => d' = d
  | src :: sources, d, d' => ∃ d₁, copy_source pf dest src d = (.ok (), d₁) ∧ CopiedInto dest src d.tree d₁.tree ∧
      CopiedInTurn pf dest sources d₁ d'

/-- No source is deeper than the limit when its turn comes, where the destination, `h` deep at first, gets deeper with what is
copied into it. -/
def Fits (limit : Nat) (t : FileTree α) (dest : Loc) : Nat → List Loc → Prop
  | _, [] => True
  | h, src :: sources =>
      let k := if src = dest then h else t.height src
      k ≤ limit ∧ Fits limit t dest (max h (k + 1)) sources

section Source

variable {dest src : Loc} {d d' : Disk α}

theorem height_of_isFile {t : FileTree α} (hfile : t.isFile src = true) : t.height src = 0 := by
  refine Nat.eq_zero_of_le_zero (FileTree.height_le.mpr fun r hr => ?_)
  have := FileTree.isFile_eq_false_above (List.prefix_append src r) hr
  rw [hfile] at this
  cases this

/-- The free name that is found for a source. -/
theorem copy_target (hdest : d.tree.isDir dest = true) (hex : d.tree.exists src = true) (hne : src ≠ []) :
    ∃ c, IsName c ∧ change_path_name_if_exists d.tree (dest ++ [src.name]) = dest ++ [c] ∧
      d.tree.exists (dest ++ [c]) = false := by
  have hname : ∀ c ∈ dest ++ [src.name], IsName c := by
    intro c hc
    rcases List.mem_append.mp hc with hc | hc
    · exact FileTree.isName_of_exists (FileTree.exists_of_isDir hdest) c hc
    · rw [List.mem_singleton.mp hc]
      refine FileTree.isName_of_exists hex _ ?_
      rw [Loc.name, List.getLast?_eq_some_getLast hne]
      exact List.getLast_mem hne
  obtain ⟨hfree, ⟨_, heq⟩ | ⟨_, c, ⟨hc, _⟩, heq⟩⟩ := change_path_name_cases d.tree (dest ++ [src.name])
  · exact ⟨src.name, hname _ (by simp), heq, heq ▸ hfree⟩
  · rw [Loc.parent_concat] at heq
    exact ⟨c, hc, heq, heq ▸ hfree⟩

theorem copy_source_eq {dst : Loc} (hex : d.tree.exists src = true)
    (hdst : change_path_name_if_exists d.tree (dest ++ [src.name]) = dst) : copy_source pf dest src d =
      (if d.tree.isDir src = true then Fs.copytree pf.recursion_limit src dst else Fs.copy2 src dst : Fs α Unit) d := by
  unfold copy_source
  rw [Disk.look, Eff.read_bind_run, hex, if_pos rfl, Disk.look, Eff.read_bind_run, hdst, Disk.look, Eff.read_bind_run]

theorem copy_source_exact (hdest : d.tree.isDir dest = true) (hex : d.tree.exists src = true) (hne : src ≠ [])
    (hplace : ¬ (src <+: dest ∧ src ≠ dest)) (hheight : d.tree.height src ≤ pf.recursion_limit) :
    ∃ d', copy_source pf dest src d = (.ok (), d') ∧ CopiedInto dest src d.tree d'.tree := by
  obtain ⟨c, hc, hdst, hfree⟩ := copy_target hdest hex hne
  rw [copy_source_eq hex hdst]
  cases hdir : d.tree.isDir src with
  | true =>
      have hplace : ¬ src <+: dest ∨ src = dest := by
        by_cases hle : src <+: dest
        · exact Or.inr (by_contra fun h => hplace ⟨hle, h⟩)
        · exact Or.inl hle
      obtain ⟨d', hrun, hcopied⟩ := Fs.copytree_exact hdir hfree hdest hc hplace hheight
      exact ⟨d', hrun, c, hfree, hcopied⟩
  | false =>
      rw [FileTree.exists_eq, hdir, Bool.false_or] at hex
      obtain ⟨x, hx⟩ := FileTree.isFile_iff.mp hex
      obtain ⟨d', hrun, hcopied⟩ := Fs.copy2_exact hx hfree (by rwa [Loc.parent_concat]) (by rwa [Loc.name_concat])
      exact ⟨d', hrun, c, hfree, hcopied⟩

theorem copy_source_returned (hdest : d.tree.isDir dest = true) (hex : d.tree.exists src = true) (hne : src ≠ [])
    (hrun : copy_source pf dest src d = (.ok (), d')) (hcopied : CopiedInto dest src d.tree d'.tree) :
    ¬ (src <+: dest ∧ src ≠ dest) ∧ d.tree.height src ≤ pf.recursion_limit := by
  obtain ⟨c, hc, hdst, hfree⟩ := copy_target hdest hex hne
  rw [copy_source_eq hex hdst] at hrun
  cases hdir : d.tree.isDir src with
  | false =>
      rw [FileTree.exists_eq, hdir, Bool.false_or] at hex
      refine ⟨fun ⟨hle, _⟩ => ?_, by rw [height_of_isFile hex]; exact Nat.zero_le _⟩
      rw [FileTree.isFile_eq_false_above hle hdest] at hex
      cases hex
  | true =>
      rw [hdir, if_pos rfl] at hrun
      refine ⟨?_, Fs.copytree_height hrun⟩
      rintro ⟨⟨w, rfl⟩, hproper⟩
      have hw : w ≠ [] := by
        rintro rfl
        simp at hproper
      have hnested := Fs.copytree_nested hw hdest hrun
      -- the one new entry is the target, and the source had nothing there
      obtain ⟨c', hfree', hcopied⟩ := hcopied
      have htarget := Fs.copytree_covers hrun [] (by rwa [List.append_nil])
      have hc' : c' = c := by
        by_contra hother
        rw [List.append_nil, FileTree.exists, hcopied.outside _ fun hle => hother ?_, ← FileTree.exists, hfree] at htarget
        · cases htarget
        · have := (List.prefix_append_right_inj (src ++ w)).mp hle
          exact (List.cons_prefix_cons.mp this).1
      subst hc'
      have hsource := hcopied.below (w ++ [c'])
      rw [← List.append_assoc, ← List.append_assoc] at hsource
      rw [FileTree.exists, hsource, ← FileTree.exists, hfree] at hnested
      cases hnested

end Source

/-! ## The whole list -/

/-- What is known of the sources left when some were copied: they are there, and how deep they are. -/
structure SourcesLeft (dest : Loc) (t : FileTree α) (h : Nat) (sources : List Loc) (t' : FileTree α) : Prop where
  isDir : t'.isDir dest = true
  exist : ∀ src ∈ sources, t'.exists src = true
  height_dest : t'.height dest = h
  height : ∀ src ∈ sources, ¬ src <+: dest → t'.height src = t.height src

theorem SourcesLeft.next {dest src : Loc} {t t' t'' : FileTree α} {h : Nat} {sources : List Loc}
    (hleft : SourcesLeft dest t h (src :: sources) t') (hcopied : CopiedInto dest src t' t'') :
    SourcesLeft dest t (max h (t'.height src + 1)) sources t'' := by
  obtain ⟨c, hfree, hcopied⟩ := hcopied
  refine ⟨?_, fun s hs => ?_, ?_, fun s hs hnot => ?_⟩
  · exact FileTree.isDir_iff.mpr (hcopied.keeps hfree (FileTree.isDir_iff.mp hleft.isDir))
  · obtain ⟨n, hn⟩ := FileTree.exists_iff.mp (hleft.exist s (List.mem_cons_of_mem _ hs))
    exact FileTree.exists_iff.mpr ⟨n, hcopied.keeps hfree hn⟩
  · rw [hcopied.height_parent hfree hleft.isDir, hleft.height_dest]
  · have hs := List.mem_cons_of_mem src hs
    have hout : ¬ s <+: dest ++ [c] := by
      intro hle
      rcases List.prefix_concat_iff.mp hle with heq | hle
      · have := hleft.exist s hs
        rw [heq, hfree] at this
        cases this
      · exact hnot hle
    rw [hcopied.height_other hfree (hleft.exist s hs) hout, hleft.height s hs hnot]

/-- The sources are copied one after the other exactly when none is strictly above the destination and all of them fit. -/
theorem copied_in_turn_iff {dest : Loc} {t : FileTree α} {sources : List Loc} (hne : ∀ src ∈ sources, src ≠ []) {h : Nat}
    {d : Disk α} (hleft : SourcesLeft dest t h sources d.tree) :
    (∃ d', CopiedInTurn pf dest sources d d') ↔
      (∀ src ∈ sources, ¬ (src <+: dest ∧ src ≠ dest)) ∧ Fits pf.recursion_limit t dest h sources := by
  induction sources generalizing h d with
  | nil => exact iff_of_true ⟨d, rfl⟩ ⟨fun _ hs => (List.not_mem_nil hs).elim, trivial⟩
  | cons src sources ih =>
      have hex := hleft.exist src List.mem_cons_self
      have hsrc := hne src List.mem_cons_self
      have hrest := fun s hs => hne s (List.mem_cons_of_mem src hs)
      have hheight (hplace : ¬ (src <+: dest ∧ src ≠ dest)) : d.tree.height src = if src = dest then h else t.height src := by
        split
        · rename_i heq
          rw [heq, hleft.height_dest]
        · rename_i hother
          exact hleft.height src List.mem_cons_self fun hle => hplace ⟨hle, hother⟩
      rw [List.forall_mem_cons]
      constructor
      · rintro ⟨d', d₁, hrun, hcopied, hturn⟩
        obtain ⟨hplace, hfits⟩ := copy_source_returned hleft.isDir hex hsrc hrun hcopied
        have hnext := hleft.next hcopied
        rw [hheight hplace] at hfits hnext
        obtain ⟨hplaces, hfits'⟩ := (ih hrest hnext).mp ⟨d', hturn⟩
        exact ⟨⟨hplace, hplaces⟩, hfits, hfits'⟩
      · rintro ⟨⟨hplace, hplaces⟩, hfits, hfits'⟩
        rw [← hheight hplace] at hfits hfits'
        obtain ⟨d₁, hrun, hcopied⟩ := copy_source_exact hleft.isDir hex hsrc hplace hfits
        obtain ⟨d', hturn⟩ := (ih hrest (hleft.next hcopied)).mpr ⟨hplaces, hfits'⟩
        exact ⟨d', d₁, hrun, hcopied, hturn⟩

/-- Copies that were made in turn are what the loop leads to, and change nothing that was there. -/
theorem CopiedInTurn.run {dest : Loc} {sources : List Loc} {d d' : Disk α} (h : CopiedInTurn pf dest sources d d') :
    sources.forM (copy_source pf dest) d = (.ok (), d') ∧
      ∀ q n, d.tree.get q = some n → d'.tree.get q = some n := by
  induction sources generalizing d with
  | nil =>
      cases h
      exact ⟨rfl, fun _ _ hq => hq⟩
  | cons src sources ih =>
      obtain ⟨d₁, hrun, ⟨c, hfree, hcopied⟩, hturn⟩ := h
      obtain ⟨hrest, hkept⟩ := ih hturn
      refine ⟨?_, fun q n hq => hkept q n (hcopied.keeps hfree hq)⟩
      rw [List.forM_eq_forM, List.forM_cons, Eff.bind_run_ok hrun]
      exact hrest

end Backend
