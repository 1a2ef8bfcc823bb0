import Miniverse.Versions.Service

/-!
# What the parser accepts
-/

namespace Backend

open Lib

/-- An accepted version was read from a match of one of the formats. -/
theorem parseWith_ok {formats : List VersionFormat} {version : String} {p : ParsedMinecraftVersion}
    (h : parseWith formats version = .ok (some p)) :
    ∃ f ∈ formats, ∃ m, f.regex.match version.toList = some m ∧ f.read m = .ok p := by
  induction formats with
  | nil => cases h
  | cons f fs ih =>
      unfold parseWith at h
      split at h
      · rename_i m hm
        cases hr : f.read m with
        | error e =>
            rw [hr] at h
            cases h
        | ok q =>
            rw [hr] at h
            cases h
            exact ⟨f, List.mem_cons_self, m, hm, hr⟩
      · obtain ⟨g, hg, hm⟩ := ih h
        exact ⟨g, List.mem_cons_of_mem _ hg, hm⟩

theorem readMain_ok {type : VersionType} {system : VersionSystem} {m : Match} {p : ParsedMinecraftVersion}
    (h : readMain type system m = .ok p) : p.type = type ∧ p.system = system ∧ p.type_version = .number 0 := by
  unfold readMain at h
  cases hmajor : intGroup m "major" with
  | error e => simp [hmajor, bind, Except.bind] at h
  | ok major =>
      cases hminor : intGroup m "minor" with
      | error e => simp [hmajor, hminor, bind, Except.bind] at h
      | ok minor =>
          cases hpatch : intGroup m "patch" with
          | error e => simp [hmajor, hminor, hpatch, bind, Except.bind] at h
          | ok patch =>
              simp only [hmajor, hminor, hpatch, bind, Except.bind, pure, Except.pure, Except.ok.injEq] at h
              subst h
              exact ⟨rfl, rfl, rfl⟩

theorem readNumbered_ok {type : VersionType} {system : VersionSystem} {m : Match} {p : ParsedMinecraftVersion}
    (h : readNumbered type system m = .ok p) :
    p.type = type ∧ p.system = system ∧ (∃ n, p.type_version = .number n) ∧ p.suffix = textGroup m "suffix" := by
  unfold readNumbered at h
  cases hmain : readMain type system m with
  | error e => simp [hmain, bind, Except.bind] at h
  | ok main =>
      cases hn : intGroup m "type_version" with
      | error e => simp [hmain, hn, bind, Except.bind] at h
      | ok n =>
          simp only [hmain, hn, bind, Except.bind, pure, Except.pure, Except.ok.injEq] at h
          subst h
          obtain ⟨htype, hsystem, _⟩ := readMain_ok hmain
          exact ⟨htype, hsystem, ⟨n, rfl⟩, rfl⟩

theorem readOldSnapshot_ok {m : Match} {p : ParsedMinecraftVersion} (h : readOldSnapshot m = .ok p) :
    p.type = .snapshot := by
  unfold readOldSnapshot at h
  cases hyear : intGroup m "year" with
  | error e => simp [hyear, bind, Except.bind] at h
  | ok year =>
      cases hweek : intGroup m "week" with
      | error e => simp [hyear, hweek, bind, Except.bind] at h
      | ok week =>
          simp only [hyear, hweek, bind, Except.bind, pure, Except.pure, Except.ok.injEq] at h
          subst h
          rfl

/-- The suffix group of a prerelease format takes `pre` or `rc`. -/
theorem suffix_of_match {r : Regex} {text : List Char} {m : Match} (h : r.match text = some m)
    (hreq : r.requires "suffix" = true)
    (hnamed : r.groupsNamed "suffix" = [.alt (.lit "pre".toList) (.lit "rc".toList)]) :
    textGroup m "suffix" = some "pre" ∨ textGroup m "suffix" = some "rc" := by
  obtain ⟨t, ht, s, hs, inner, rest, hm⟩ := Regex.group_of_match h hreq
  rw [hnamed, List.mem_singleton] at hs
  subst hs
  unfold textGroup
  rw [ht]
  rcases hm with ⟨rfl, _⟩ | ⟨rfl, _⟩
  · exact Or.inl rfl
  · exact Or.inr rfl

/-- A prerelease has one of two suffixes, and a number after it. -/
theorem parse_version_prerelease {v : String} {p : ParsedMinecraftVersion} (h : parse_version v = .ok (some p))
    (htype : p.type = .prerelease) :
    (p.suffix = some "pre" ∨ p.suffix = some "rc") ∧ ∃ n, p.type_version = .number n := by
  obtain ⟨f, hf, m, hm, hread⟩ := parseWith_ok h
  simp only [versionFormats, List.mem_cons, List.not_mem_nil, or_false] at hf
  rcases hf with rfl | rfl | rfl | rfl | rfl | rfl
  · rw [(readMain_ok hread).1] at htype
    cases htype
  · rw [(readMain_ok hread).1] at htype
    cases htype
  · obtain ⟨_, _, hnumber, hsuffix⟩ := readNumbered_ok hread
    rw [hsuffix]
    exact ⟨suffix_of_match hm rfl rfl, hnumber⟩
  · obtain ⟨_, _, hnumber, hsuffix⟩ := readNumbered_ok hread
    rw [hsuffix]
    exact ⟨suffix_of_match hm rfl rfl, hnumber⟩
  · rw [readOldSnapshot_ok hread] at htype
    cases htype
  · rw [(readNumbered_ok hread).1] at htype
    cases htype

/-! ## Numbers that are too long -/

/-- All that is raised is a `ValueError`. -/
def OnlyValueErrors {β : Type} (r : Except PyError β) : Prop := ∀ e, r = .error e → ∃ message, e = .valueError message

theorem OnlyValueErrors.bind {β γ : Type} {r : Except PyError β} {k : β → Except PyError γ} (hr : OnlyValueErrors r)
    (hk : ∀ b, OnlyValueErrors (k b)) : OnlyValueErrors (r >>= k) := by
  cases r with
  | error e =>
      intro e' h
      cases h
      exact hr e rfl
  | ok b => exact hk b

theorem onlyValueErrors_ok {β : Type} (b : β) : OnlyValueErrors (.ok b) := by
  intro e h
  cases h

theorem onlyValueErrors_int (digits : List Char) : OnlyValueErrors (int digits) := by
  intro e h
  unfold int at h
  by_cases hlong : 4300 < digits.length
  · rw [if_pos hlong] at h
    cases h
    exact ⟨_, rfl⟩
  · rw [if_neg hlong] at h
    cases h

theorem onlyValueErrors_intGroup (m : Match) (name : String) : OnlyValueErrors (intGroup m name) := by
  unfold intGroup
  cases m.group name with
  | none => exact onlyValueErrors_ok 0
  | some digits => exact onlyValueErrors_int digits

theorem onlyValueErrors_readMain (type : VersionType) (system : VersionSystem) (m : Match) :
    OnlyValueErrors (readMain type system m) :=
  (onlyValueErrors_intGroup m _).bind fun _ => (onlyValueErrors_intGroup m _).bind fun _ =>
    (onlyValueErrors_intGroup m _).bind fun _ => onlyValueErrors_ok _

theorem onlyValueErrors_readNumbered (type : VersionType) (system : VersionSystem) (m : Match) :
    OnlyValueErrors (readNumbered type system m) :=
  (onlyValueErrors_readMain type system m).bind fun _ => (onlyValueErrors_intGroup m _).bind fun _ => onlyValueErrors_ok _

theorem onlyValueErrors_readOldSnapshot (m : Match) : OnlyValueErrors (readOldSnapshot m) :=
  (onlyValueErrors_intGroup m _).bind fun _ => (onlyValueErrors_intGroup m _).bind fun _ => onlyValueErrors_ok _

theorem onlyValueErrors_parseWith {formats : List VersionFormat} (h : ∀ f ∈ formats, ∀ m, OnlyValueErrors (f.read m))
    (version : String) : OnlyValueErrors (parseWith formats version) := by
  induction formats with
  | nil => exact onlyValueErrors_ok none
  | cons f fs ih =>
      unfold parseWith
      cases f.regex.match version.toList with
      | none => exact ih fun g hg => h g (List.mem_cons_of_mem _ hg)
      | some m =>
          intro e he
          cases hr : f.read m with
          | error e' =>
              simp only [hr, Except.map, Except.error.injEq] at he
              exact he ▸ h f List.mem_cons_self m e' hr
          | ok p =>
              simp only [hr, Except.map] at he
              cases he

theorem onlyValueErrors_parse_version (version : String) : OnlyValueErrors (parse_version version) := by
  refine onlyValueErrors_parseWith (fun f hf m => ?_) version
  simp only [versionFormats, List.mem_cons, List.not_mem_nil, or_false] at hf
  rcases hf with rfl | rfl | rfl | rfl | rfl | rfl
  · exact onlyValueErrors_readMain _ _ m
  · exact onlyValueErrors_readMain _ _ m
  · exact onlyValueErrors_readNumbered _ _ m
  · exact onlyValueErrors_readNumbered _ _ m
  · exact onlyValueErrors_readOldSnapshot m
  · exact onlyValueErrors_readNumbered _ _ m

end Backend
