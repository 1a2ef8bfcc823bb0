import Miniverse.Versions.Lemmas.Chain
import Miniverse.Versions.Lemmas.Readings

/-!
# Theorems about versions

When the comparison follows the order that it is meant to follow, and where a chain of accepted changes can lead.
-/

namespace Backend

open Lib

/-- The pairs that are compared in order: the two are one text, or differ in a number before the suffix or in
being a release, or are prereleases with one suffix and one number, or releases listed with one date. -/
def ComparedInOrder (all_versions : List MinecraftVersion) (v1 v2 : String) (p1 p2 : ParsedMinecraftVersion) : Prop :=
  v1 = v2 ∨ [p1.major, p1.minor, p1.patch] ≠ [p2.major, p2.minor, p2.patch] ∨ p1.type ≠ p2.type ∨
    (p1.type = .prerelease ∧ p2.type = .prerelease ∧ p1.suffix = p2.suffix ∧ p1.type_version = p2.type_version) ∨
    (p1.type = .release ∧ p2.type = .release ∧
      ∃ date, publishDate all_versions v1 = some date ∧ publishDate all_versions v2 = some date)

theorem compare_by_publish_date_zero (all_versions : List MinecraftVersion) (v1 v2 : String) :
    compare_by_publish_date (.ok all_versions) v1 v2 = .ok (some 0) ↔
      ∃ date, publishDate all_versions v1 = some date ∧ publishDate all_versions v2 = some date := by
  unfold compare_by_publish_date
  cases h1 : publishDate all_versions v1 with
  | none => simp [bind, Except.bind, pure, Except.pure, h1]
  | some d1 =>
      cases h2 : publishDate all_versions v2 with
      | none => simp [bind, Except.bind, pure, Except.pure, h1, h2]
      | some d2 =>
          simp only [bind, Except.bind, pure, Except.pure, h1, h2, compareDates]
          by_cases haware : d1.aware = d2.aware
          · simp only [haware, if_true, Except.ok.injEq, Option.some.injEq, sign_eq_zero]
            constructor
            · intro htime
              refine ⟨d1, rfl, ?_⟩
              cases d1
              cases d2
              simp_all
            · rintro ⟨date, rfl, rfl⟩
              rfl
          · simp only [haware, if_false]
            constructor
            · intro h
              cases h
            · rintro ⟨date, h1', h2'⟩
              rw [Option.some.inj h1', Option.some.inj h2'] at haware
              exact absurd rfl haware

/-- Two accepted texts that differ, none a snapshot: the numbers first, then the stage. -/
theorem compare_versions_ne {all_versions : List MinecraftVersion} {v1 v2 : String} {p1 p2 : ParsedMinecraftVersion}
    (hne : v1 ≠ v2) (h1 : parse_version v1 = .ok (some p1)) (h2 : parse_version v2 = .ok (some p2))
    (k1 : p1.type ≠ .snapshot) (k2 : p2.type ≠ .snapshot) :
    compare_versions (.ok all_versions) v1 v2 =
      if lexSign [p1.major, p1.minor, p1.patch] [p2.major, p2.minor, p2.patch] ≠ 0 then
        .ok (some (lexSign [p1.major, p1.minor, p1.patch] [p2.major, p2.minor, p2.patch]))
      else
        match p1.type, p2.type with
        | .release, .prerelease => .ok (some 1)
        | .prerelease, .release => .ok (some (-1))
        | .prerelease, .prerelease => (compare_prerelease_identifiers p1.suffix p2.suffix).map some
        | _, _ => compare_by_publish_date (.ok all_versions) v1 v2 := by
  unfold compare_versions compare_versions_with
  rw [if_neg hne, h1, h2]
  have hsnap : ¬ (p1.type = .snapshot ∧ p1.system = .old ∨ p2.type = .snapshot ∧ p2.system = .old) := by
    rintro (h | h)
    · exact k1 h.1
    · exact k2 h.1
  simp only [bind, Except.bind, pure, Except.pure, hsnap, if_false, compare_main_versions_eq]
  split
  · rfl
  · cases p1.type <;> cases p2.type <;> rfl

theorem stage_of_release {p : ParsedMinecraftVersion} (h : p.type = .release) : p.stage = 2 := by
  simp [ParsedMinecraftVersion.stage, h]

theorem stage_of_prerelease {p : ParsedMinecraftVersion} (h : p.type = .prerelease) : p.stage = 0 ∨ p.stage = 1 := by
  simp only [ParsedMinecraftVersion.stage, h]
  split
  · exact Or.inr rfl
  · exact Or.inl rfl

/-- The comparison of releases and prereleases follows the order exactly on the pairs compared in order. -/
theorem compare_versions_iff {all_versions : List MinecraftVersion} {v1 v2 : String} {p1 p2 : ParsedMinecraftVersion}
    (h1 : parse_version v1 = .ok (some p1)) (h2 : parse_version v2 = .ok (some p2)) (k1 : p1.type ≠ .snapshot)
    (k2 : p2.type ≠ .snapshot) :
    compare_versions (.ok all_versions) v1 v2 = .ok (some (lexSign p1.key p2.key)) ↔
      ComparedInOrder all_versions v1 v2 p1 p2 := by
  by_cases hne : v1 = v2
  · subst hne
    rw [h1] at h2
    cases h2
    refine iff_of_true ?_ (Or.inl rfl)
    rw [compare_versions, compare_versions_with, if_pos rfl, lexSign_self]
  · have hkey := lexSign_append (a := [p1.major, p1.minor, p1.patch]) (b := [p2.major, p2.minor, p2.patch]) rfl
      [p1.stage, p1.number] [p2.stage, p2.number]
    have hkey : lexSign p1.key p2.key = _ := hkey
    rw [compare_versions_ne hne h1 h2 k1 k2, hkey]
    unfold ComparedInOrder
    by_cases hmain : [p1.major, p1.minor, p1.patch] = [p2.major, p2.minor, p2.patch]
    · -- the numbers agree, so the stages decide, and then what comes after them
      simp only [hmain, lexSign_self, ne_eq, not_true_eq_false, if_false, hne, false_or]
      cases ht1 : p1.type with
      | snapshot => exact absurd ht1 k1
      | release =>
          cases ht2 : p2.type with
          | snapshot => exact absurd ht2 k2
          | release =>
              have hzero : lexSign [p1.stage, p1.number] [p2.stage, p2.number] = 0 := by
                simp [ParsedMinecraftVersion.stage, ParsedMinecraftVersion.number, ht1, ht2, lexSign_self]
              simp [hzero, compare_by_publish_date_zero]
          | prerelease =>
              refine iff_of_true ?_ (Or.inl (by simp))
              rcases stage_of_prerelease ht2 with h | h <;>
                simp [lexSign_cons, stage_of_release ht1, h, sign]
      | prerelease =>
          cases ht2 : p2.type with
          | snapshot => exact absurd ht2 k2
          | release =>
              refine iff_of_true ?_ (Or.inl (by simp))
              rcases stage_of_prerelease ht1 with h | h <;>
                simp [lexSign_cons, stage_of_release ht2, h, sign]
          | prerelease =>
              obtain ⟨hs1, n1, hn1⟩ := parse_version_prerelease h1 ht1
              obtain ⟨hs2, n2, hn2⟩ := parse_version_prerelease h2 ht2
              by_cases hsuffix : p1.suffix = p2.suffix
              · have hstage : p1.stage = p2.stage := by
                  simp [ParsedMinecraftVersion.stage, ht1, ht2, hsuffix]
                have hnumber : [p1.stage, p1.number] = [p2.stage, p2.number] ↔ p1.type_version = p2.type_version := by
                  simp [ParsedMinecraftVersion.number, ht1, ht2, hn1, hn2, hstage]
                simp only [hsuffix, compare_prerelease_identifiers_same, Except.map, Except.ok.injEq, Option.some.injEq,
                  @eq_comm _ (0 : Int), lexSign_eq_zero, hnumber]
                simp
              · rw [compare_prerelease_identifiers_differ hs1 hs2 hsuffix]
                simp [Except.map, hsuffix]
    · -- a number decides
      have hnonzero : lexSign [p1.major, p1.minor, p1.patch] [p2.major, p2.minor, p2.patch] ≠ 0 :=
        fun h => hmain (lexSign_eq_zero.mp h)
      simp [hmain, hnonzero]

set_option maxRecDepth 10000 in
/-- A release and a release candidate are compared in order. -/
theorem compare_versions_iff_release : compare_versions (.ok []) "1.21" "1.21-rc1" = .ok (some 1) := by
  have h1 : parse_version "1.21" = .ok (some ⟨"1.21", .release, .old, 1, 21, 0, .number 0, none⟩) := by decide
  have h2 : parse_version "1.21-rc1" = .ok (some ⟨"1.21-rc1", .prerelease, .old, 1, 21, 0, .number 1, some "rc"⟩) := by
    decide
  exact (compare_versions_iff h1 h2 (by decide) (by decide)).mpr (Or.inr (Or.inr (Or.inl (by decide))))

set_option maxRecDepth 10000 in
/-- Two prereleases of one release are equal to the comparison. -/
theorem compare_versions_not_in_order :
    ∃ p1 p2, parse_version "1.21-pre1" = .ok (some p1) ∧ parse_version "1.21-pre2" = .ok (some p2) ∧
      p1.type = .prerelease ∧ p2.type = .prerelease ∧
      compare_versions (.ok []) "1.21-pre1" "1.21-pre2" ≠ .ok (some (lexSign p1.key p2.key)) := by
  refine ⟨⟨"1.21-pre1", .prerelease, .old, 1, 21, 0, .number 1, some "pre"⟩,
    ⟨"1.21-pre2", .prerelease, .old, 1, 21, 0, .number 2, some "pre"⟩, ?_, ?_, rfl, rfl, ?_⟩ <;> decide

/-! ## Chains of changes -/

/-- Where the dates do not contradict the rest of the comparison, no chain of accepted changes leads to a version that
is ranked below the first. -/
theorem chain_never_downgrades {all_versions : List MinecraftVersion} (hagree : DatesAgree all_versions) {u v : String}
    (h : Relation.ReflTransGen (Passes all_versions) u v) {c : Int}
    (hc : compare_versions (.ok all_versions) u v = .ok (some c)) : c ≤ 0 := by
  have hreached := reached_of_chain hagree h
  by_cases hne : u = v
  · rw [compare_versions, compare_versions_with, if_pos hne] at hc
    cases hc
    exact Int.le_refl 0
  · obtain ⟨p, q, hp, hq⟩ := compare_versions_both hne hc
    have hcompared := compared all_versions hne hp hq
    generalize compare_versions (.ok all_versions) u v = result at hcompared hc
    cases hcompared with
    | dated hdated =>
        obtain ⟨d, e, hd, he, rfl⟩ := compare_by_publish_date_some hp hq hc
        exact sign_le_zero.mpr (hreached.dates hagree hd he hdated)
    | below =>
        cases hc
        decide
    | above hpold hqold habove => exact absurd habove (hreached.not_below hagree hp hq hpold hqold)
    | level =>
        cases hc
        decide
    | unequal => cases hc

/-- A release, a snapshot and the next release, in the order of their dates. -/
def sampleDates : List MinecraftVersion := [⟨"1.20", ⟨1, true⟩⟩, ⟨"23w40a", ⟨2, true⟩⟩, ⟨"1.21", ⟨3, true⟩⟩]

set_option maxRecDepth 10000 in
theorem listed_sampleDates {u : String} {p : ParsedMinecraftVersion} {d : DateTime} (h : Listed sampleDates u p d) :
    p.type ≠ .prerelease ∧ (p.IsOldSnapshot ∨ p.numbers = [1, 20, 0] ∧ d.time = 1 ∨ p.numbers = [1, 21, 0] ∧ d.time = 3) := by
  obtain ⟨hparsed, hpublished⟩ := h
  obtain ⟨v, hv, rfl⟩ := Option.map_eq_some_iff.mp hpublished
  obtain rfl : v.version = u := by simpa using List.find?_some hv
  have hmem := List.mem_of_find?_eq_some hv
  simp only [sampleDates, List.mem_cons, List.not_mem_nil, or_false] at hmem
  rcases hmem with rfl | rfl | rfl
  · have hp : parse_version "1.20" = .ok (some ⟨"1.20", .release, .old, 1, 20, 0, .number 0, none⟩) := by decide
    obtain rfl := Option.some.inj (Except.ok.inj (hp.symm.trans hparsed))
    exact ⟨by decide, Or.inr (Or.inl ⟨rfl, rfl⟩)⟩
  · have hp : parse_version "23w40a" = .ok (some ⟨"23w40a", .snapshot, .old, 23, 40, 0, .letter "a", none⟩) := by decide
    obtain rfl := Option.some.inj (Except.ok.inj (hp.symm.trans hparsed))
    exact ⟨by decide, Or.inl ⟨rfl, rfl⟩⟩
  · have hp : parse_version "1.21" = .ok (some ⟨"1.21", .release, .old, 1, 21, 0, .number 0, none⟩) := by decide
    obtain rfl := Option.some.inj (Except.ok.inj (hp.symm.trans hparsed))
    exact ⟨by decide, Or.inr (Or.inr ⟨rfl, rfl⟩)⟩

theorem datesAgree_sampleDates : DatesAgree sampleDates where
  below hu hv hpold hqold hbelow := by
    obtain ⟨hp, hnotold⟩ := listed_sampleDates hu
    obtain ⟨_, hnotold'⟩ := listed_sampleDates hv
    rcases hbelow with hlt | ⟨_, hprerelease, _⟩
    · rcases hnotold with h | ⟨hnumbers, htime⟩ | ⟨hnumbers, htime⟩
      · exact absurd h hpold
      · rcases hnotold' with h | ⟨hnumbers', htime'⟩ | ⟨hnumbers', htime'⟩
        · exact absurd h hqold
        · rw [hnumbers, hnumbers'] at hlt
          exact absurd hlt (by decide)
        · omega
      · rcases hnotold' with h | ⟨hnumbers', htime'⟩ | ⟨hnumbers', htime'⟩
        · exact absurd h hqold
        · rw [hnumbers, hnumbers'] at hlt
          exact absurd hlt (by decide)
        · rw [hnumbers, hnumbers'] at hlt
          exact absurd hlt (by decide)
    · exact absurd hprerelease hp
  level hu _ _ hlevel _ := absurd hlevel.2.1 (listed_sampleDates hu).1

set_option maxRecDepth 10000 in
/-- From a release over a snapshot to the next release. -/
theorem chain_never_downgrades_sample :
    compare_versions (.ok sampleDates) "1.20" "1.21" = .ok (some (-1)) ∧ (-1 : Int) ≤ 0 := by
  have hsnapshot : Passes sampleDates "1.20" "23w40a" := ⟨-1, by decide, by decide⟩
  have hrelease : Passes sampleDates "23w40a" "1.21" := ⟨-1, by decide, by decide⟩
  have hcompared : compare_versions (.ok sampleDates) "1.20" "1.21" = .ok (some (-1)) := by decide
  exact ⟨hcompared, chain_never_downgrades datesAgree_sampleDates (.tail (.tail .refl hsnapshot) hrelease) hcompared⟩

set_option maxRecDepth 10000 in
/-- With dates against the numbers, a chain over a snapshot leads to an older release. -/
theorem chain_downgrades :
    ¬ ∀ (all_versions : List MinecraftVersion) (u v : String), Relation.ReflTransGen (Passes all_versions) u v →
      compare_versions (.ok all_versions) u v ≠ .ok (some 1) := by
  intro h
  have hsnapshot : Passes [⟨"1.20", ⟨1, true⟩⟩, ⟨"23w40a", ⟨2, true⟩⟩, ⟨"1.19", ⟨3, true⟩⟩] "1.20" "23w40a" :=
    ⟨-1, by decide, by decide⟩
  have hrelease : Passes [⟨"1.20", ⟨1, true⟩⟩, ⟨"23w40a", ⟨2, true⟩⟩, ⟨"1.19", ⟨3, true⟩⟩] "23w40a" "1.19" :=
    ⟨-1, by decide, by decide⟩
  exact h _ _ _ (.tail (.tail .refl hsnapshot) hrelease) (by decide)

/-! ## Comparing the other way round -/

/-- Both comparisons raise, or find nothing, or find opposite orders. -/
inductive Mirrored : Except PyError (Option Int) → Except PyError (Option Int) → Prop
  | raised (e e') : Mirrored (.error e) (.error e')
  | unknown : Mirrored (.ok none) (.ok none)
  | opposite (c) : Mirrored (.ok (some c)) (.ok (some (-c)))

theorem compare_by_publish_date_mirrored (all_versions : List MinecraftVersion) (v1 v2 : String) :
    Mirrored (compare_by_publish_date (.ok all_versions) v1 v2) (compare_by_publish_date (.ok all_versions) v2 v1) := by
  unfold compare_by_publish_date
  cases h1 : publishDate all_versions v1 with
  | none =>
      cases h2 : publishDate all_versions v2 with
      | none => simpa [bind, Except.bind, pure, Except.pure, h1, h2] using Mirrored.unknown
      | some d2 => simpa [bind, Except.bind, pure, Except.pure, h1, h2] using Mirrored.unknown
  | some d1 =>
      cases h2 : publishDate all_versions v2 with
      | none => simpa [bind, Except.bind, pure, Except.pure, h1, h2] using Mirrored.unknown
      | some d2 =>
          simp only [bind, Except.bind, pure, Except.pure, h1, h2, compareDates]
          by_cases haware : d1.aware = d2.aware
          · rw [if_pos haware, if_pos haware.symm, sign_swap d1.time d2.time]
            exact .opposite _
          · rw [if_neg haware, if_neg fun heq => haware heq.symm]
            exact .raised _ _

theorem compare_prerelease_identifiers_mirrored {id1 id2 : Option String} (h1 : id1 = some "pre" ∨ id1 = some "rc")
    (h2 : id2 = some "pre" ∨ id2 = some "rc") :
    Mirrored ((compare_prerelease_identifiers id1 id2).map some) ((compare_prerelease_identifiers id2 id1).map some) := by
  by_cases heq : id1 = id2
  · rw [heq, compare_prerelease_identifiers_same]
    exact .opposite 0
  · rw [compare_prerelease_identifiers_differ h1 h2 heq, compare_prerelease_identifiers_differ h2 h1 (Ne.symm heq)]
    exact .raised _ _

/-- The comparison of two accepted versions, and that of the same versions the other way round. -/
theorem compare_versions_mirrored (all_versions : List MinecraftVersion) {v1 v2 : String} {p1 p2 : ParsedMinecraftVersion}
    (h1 : parse_version v1 = .ok (some p1)) (h2 : parse_version v2 = .ok (some p2)) :
    Mirrored (compare_versions (.ok all_versions) v1 v2) (compare_versions (.ok all_versions) v2 v1) := by
  unfold compare_versions compare_versions_with
  by_cases heq : v1 = v2
  · rw [if_pos heq, if_pos heq.symm]
    exact .opposite 0
  rw [if_neg heq, if_neg (Ne.symm heq), h1, h2]
  simp only [bind, Except.bind, pure, Except.pure]
  by_cases hold : p1.type = .snapshot ∧ p1.system = .old ∨ p2.type = .snapshot ∧ p2.system = .old
  · rw [if_pos hold, if_pos hold.symm]
    exact compare_by_publish_date_mirrored all_versions v1 v2
  rw [if_neg hold, if_neg (mt Or.symm hold), compare_main_versions_eq p1 p2, compare_main_versions_eq p2 p1,
    lexSign_swap [p1.major, p1.minor, p1.patch]]
  by_cases hzero : lexSign [p1.major, p1.minor, p1.patch] [p2.major, p2.minor, p2.patch] = 0
  · rw [hzero, if_neg (by decide), if_neg (by decide)]
    cases ht1 : p1.type with
    | release =>
        cases ht2 : p2.type with
        | release => exact compare_by_publish_date_mirrored all_versions v1 v2
        | prerelease => exact .opposite 1
        | snapshot => exact compare_by_publish_date_mirrored all_versions v1 v2
    | prerelease =>
        cases ht2 : p2.type with
        | release => exact .opposite (-1)
        | prerelease =>
            exact compare_prerelease_identifiers_mirrored (parse_version_prerelease h1 ht1).1 (parse_version_prerelease h2 ht2).1
        | snapshot => exact compare_by_publish_date_mirrored all_versions v1 v2
    | snapshot =>
        cases ht2 : p2.type with
        | release => exact compare_by_publish_date_mirrored all_versions v1 v2
        | prerelease => exact compare_by_publish_date_mirrored all_versions v1 v2
        | snapshot => exact compare_by_publish_date_mirrored all_versions v1 v2
  · rw [if_pos hzero, if_pos (mt Int.neg_eq_zero.mp hzero)]
    exact .opposite _

set_option maxRecDepth 10000 in
theorem compare_versions_mirrored_sample :
    Mirrored (compare_versions (.ok []) "1.21" "1.21-rc1") (compare_versions (.ok []) "1.21-rc1" "1.21") :=
  @compare_versions_mirrored [] "1.21" "1.21-rc1" ⟨"1.21", .release, .old, 1, 21, 0, .number 0, none⟩
    ⟨"1.21-rc1", .prerelease, .old, 1, 21, 0, .number 1, some "rc"⟩ (by decide) (by decide)

/-! ## What the parser reads -/

/-- The text is a version, and `int` reads every number in it. -/
def Readable (text : List Char) : Prop := ∃ type system parts, VersionWord type system parts text ∧ parts.Short

/-- The parser accepts a version and nothing else, and reads what is written. -/
structure ParsesExactly (version : String) : Prop where
  accepted : (∃ p, parse_version version = .ok (some p)) ↔ IsVersion version.toList
  fields : ∀ p, parse_version version = .ok (some p) → p.value = version ∧
    ∃ type system parts, VersionWord type system parts version.toList ∧ p = parts.parsed type system version.toList

theorem parse_version_word {version : String} {type : VersionType} {system : VersionSystem} {parts : VersionParts}
    {text rest : List Char} (h : VersionWord type system parts text) (hrest : AtEnd rest)
    (hversion : version.toList = text ++ rest) : ∃ system', VersionWord type system' parts text ∧
      parse_version version = parts.ints.map fun _ => some (parts.parsed type system' text) :=
  parseWith_word (fun _ => Iff.rfl) h hrest hversion

/-- What is accepted is a version with readable numbers, or one with a newline behind it. -/
theorem parse_version_accepted {version : String} {p : ParsedMinecraftVersion} (h : parse_version version = .ok (some p)) :
    ∃ text rest, version.toList = text ++ rest ∧ AtEnd rest ∧ ∃ type system parts, VersionWord type system parts text ∧
      parts.Short ∧ p = parts.parsed type system text := by
  by_cases hword : ∃ text rest, version.toList = text ++ rest ∧ AtEnd rest ∧ IsVersion text
  · obtain ⟨text, rest, hversion, hrest, type, system, parts, hword⟩ := hword
    obtain ⟨system', hword', hparse⟩ := parse_version_word hword hrest hversion
    rw [hparse] at h
    cases hints : parts.ints with
    | error e =>
        rw [hints] at h
        cases h
    | ok u =>
        rw [hints] at h
        cases h
        exact ⟨text, rest, hversion, hrest, type, system', parts, hword', VersionParts.ints_ok hints, rfl⟩
  · have hnone : parse_version version = .ok none := parseWith_other (fun _ => Iff.rfl) fun text rest hversion hrest hversion' =>
      hword ⟨text, rest, hversion, hrest, hversion'⟩
    rw [hnone] at h
    cases h

theorem parse_version_readable {version : String} {text rest : List Char} (h : Readable text) (hrest : AtEnd rest)
    (hversion : version.toList = text ++ rest) : ∃ p, parse_version version = .ok (some p) := by
  obtain ⟨type, system, parts, hword, hshort⟩ := h
  obtain ⟨system', _, hparse⟩ := parse_version_word hword hrest hversion
  rw [VersionParts.ints_short hshort] at hparse
  exact ⟨_, hparse⟩

/-- The parser is exact unless there is a newline behind a version, or a number in a version is too long for `int`. -/
theorem parses_exactly_iff (version : String) : ParsesExactly version ↔
    (∀ text, version.toList = text ++ ['\n'] → ¬ Readable text) ∧ (IsVersion version.toList → Readable version.toList) := by
  constructor
  · intro h
    constructor
    · intro text hversion hreadable
      obtain ⟨_, _, _, hword⟩ := h.accepted.mp (parse_version_readable hreadable (Or.inr rfl) hversion)
      exact absurd (hversion ▸ List.mem_append_right text List.mem_cons_self) hword.newline
    · intro hversion
      obtain ⟨p, hp⟩ := h.accepted.mpr hversion
      obtain ⟨text, rest, htext, hrest, type, system, parts, hword, hshort, _⟩ := parse_version_accepted hp
      obtain ⟨type', system', parts', hword'⟩ := hversion
      obtain ⟨rfl, _⟩ := hword'.unique_end hword (Or.inl rfl) hrest ((List.append_nil _).trans htext)
      exact ⟨type, system, parts, hword, hshort⟩
  · rintro ⟨hnewline, hlong⟩
    have hwhole {p : ParsedMinecraftVersion} (h : parse_version version = .ok (some p)) : ∃ type system parts,
        VersionWord type system parts version.toList ∧ p = parts.parsed type system version.toList := by
      obtain ⟨text, rest, htext, hrest, type, system, parts, hword, hshort, hp⟩ := parse_version_accepted h
      rcases hrest with rfl | rfl
      · rw [List.append_nil] at htext
        exact ⟨type, system, parts, htext ▸ hword, htext ▸ hp⟩
      · exact absurd ⟨type, system, parts, hword, hshort⟩ (hnewline text htext)
    refine ⟨⟨?_, ?_⟩, ?_⟩
    · rintro ⟨p, hp⟩
      obtain ⟨type, system, parts, hword, _⟩ := hwhole hp
      exact ⟨type, system, parts, hword⟩
    · intro hversion
      exact parse_version_readable (hlong hversion) (Or.inl rfl) (List.append_nil _).symm
    · intro p hp
      obtain ⟨type, system, parts, hword, rfl⟩ := hwhole hp
      exact ⟨String.ofList_toList, type, system, parts, hword, rfl⟩

set_option maxRecDepth 10000 in
/-- A release with a newline behind it is accepted. -/
theorem parses_newline : ¬ ∀ version, ParsesExactly version := by
  intro h
  have hparse : parse_version "1.21\n" = .ok (some ⟨"1.21", .release, .old, 1, 21, 0, .number 0, none⟩) := by decide
  have hvalue := ((h "1.21\n").fields _ hparse).1
  exact absurd hvalue (by decide)

/-! ## The order of the formats -/

namespace ParsedMinecraftVersion

/-- All but the text and the numbering system. -/
def fields (p : ParsedMinecraftVersion) : VersionType × Nat × Nat × Nat × TypeVersion × Option String :=
  (p.type, p.major, p.minor, p.patch, p.type_version, p.suffix)

/-- A release with the numbering system forgotten. -/
def forgetSystem (p : ParsedMinecraftVersion) : ParsedMinecraftVersion :=
  if p.type = .release then { p with system := .old } else p

theorem forgetSystem_main (p : ParsedMinecraftVersion) : p.forgetSystem.type = p.type ∧ p.forgetSystem.major = p.major ∧
    p.forgetSystem.minor = p.minor ∧ p.forgetSystem.patch = p.patch ∧ p.forgetSystem.suffix = p.suffix := by
  unfold forgetSystem
  split <;> exact ⟨rfl, rfl, rfl, rfl, rfl⟩

theorem forgetSystem_old_snapshot (p : ParsedMinecraftVersion) :
    p.type = .snapshot ∧ p.forgetSystem.system = .old ↔ p.type = .snapshot ∧ p.system = .old := by
  unfold forgetSystem
  split
  · rename_i hrelease
    simp [hrelease]
  · exact Iff.rfl

end ParsedMinecraftVersion

open ParsedMinecraftVersion in
/-- The comparison does not look at the numbering system of a release. -/
theorem compare_versions_with_forget (parse : String → Except PyError (Option ParsedMinecraftVersion)) :
    compare_versions_with (fun v => (parse v).map (Option.map forgetSystem)) = compare_versions_with parse := by
  funext get_minecraft_versions v1 v2
  unfold compare_versions_with
  beta_reduce
  cases h1 : parse v1 with
  | error e => rfl
  | ok p1 =>
      cases h2 : parse v2 with
      | error e => rfl
      | ok p2 =>
          cases p2 with
          | none => rfl
          | some p2 =>
              cases p1 with
              | none => rfl
              | some p1 =>
                  obtain ⟨ht1, hmajor1, hminor1, hpatch1, hsuffix1⟩ := forgetSystem_main p1
                  obtain ⟨ht2, hmajor2, hminor2, hpatch2, hsuffix2⟩ := forgetSystem_main p2
                  simp only [Except.map, Option.map_some, bind, Except.bind, forgetSystem_old_snapshot, hmajor1, hminor1,
                    hpatch1, hsuffix1, hmajor2, hminor2, hpatch2, hsuffix2, ht1, ht2]

/-- Both are one word's groups, in the numbering systems that it has. -/
theorem forgetSystem_parsed {type : VersionType} {system system' : VersionSystem} {parts : VersionParts} {text : List Char}
    (h : VersionWord type system parts text) (h' : VersionWord type system' parts text) :
    (parts.parsed type system text).forgetSystem = (parts.parsed type system' text).forgetSystem := by
  obtain ⟨_, _, rfl | rfl⟩ := h.unique h'
  · simp [VersionParts.parsed, ParsedMinecraftVersion.forgetSystem]
  · rfl

/-- The order of the formats shows in the numbering system of a release at most. -/
theorem parseWith_forget {formats : List VersionFormat} (hformats : ∀ f, f ∈ formats ↔ f ∈ versionFormats) (version : String) :
    (parseWith formats version).map (Option.map ParsedMinecraftVersion.forgetSystem) =
      (parse_version version).map (Option.map ParsedMinecraftVersion.forgetSystem) := by
  by_cases hword : ∃ text rest, version.toList = text ++ rest ∧ AtEnd rest ∧ IsVersion text
  · obtain ⟨text, rest, hversion, hrest, type, system, parts, hword⟩ := hword
    obtain ⟨system₁, hword₁, hparse₁⟩ := parseWith_word hformats hword hrest hversion
    obtain ⟨system₂, hword₂, hparse₂⟩ := parse_version_word hword hrest hversion
    rw [hparse₁, hparse₂]
    cases parts.ints with
    | error e => rfl
    | ok u =>
        show Except.ok (some (parts.parsed type system₁ text).forgetSystem) = _
        rw [forgetSystem_parsed hword₁ hword₂]
        rfl
  · have hother : ∀ text rest, version.toList = text ++ rest → AtEnd rest → ¬ IsVersion text :=
      fun text rest hversion hrest hversion' => hword ⟨text, rest, hversion, hrest, hversion'⟩
    have hnone : parse_version version = .ok none := parseWith_other (fun _ => Iff.rfl) hother
    rw [parseWith_other hformats hother, hnone]

/-- Formats that match the same text read the same from it. -/
theorem formats_agree {f g : VersionFormat} (hf : f ∈ versionFormats) (hg : g ∈ versionFormats) {text : List Char} {m n : Match}
    (hm : f.regex.match text = some m) (hn : g.regex.match text = some n) :
    (f.read m).map ParsedMinecraftVersion.fields = (g.read n).map ParsedMinecraftVersion.fields := by
  obtain ⟨type, system, rfl⟩ := mem_versionFormats.mp hf
  obtain ⟨type', system', rfl⟩ := mem_versionFormats.mp hg
  obtain ⟨htext, hend, parts, hword, hgroups⟩ := match_word hm
  obtain ⟨htext', hend', parts', hword', hgroups'⟩ := match_word hn
  obtain ⟨htaken, _⟩ := hword.unique_end hword' hend hend' (htext.symm.trans htext')
  rw [formatOf_read hword hgroups, formatOf_read hword' hgroups', ← htaken]
  rw [← htaken] at hword'
  obtain ⟨rfl, rfl, hsystem⟩ := hword.unique hword'
  cases parts.ints with
  | error e => rfl
  | ok u =>
      rcases hsystem with rfl | rfl
      · simp [Except.map, VersionParts.parsed, ParsedMinecraftVersion.fields]
      · rfl

/-- Formats that match one text agree on all but the numbering system, so the order in which they are tried does not show
in a comparison. -/
theorem order_of_formats_irrelevant :
    (∀ f ∈ versionFormats, ∀ g ∈ versionFormats, ∀ (version : String) (m n : Match),
      f.regex.match version.toList = some m → g.regex.match version.toList = some n →
      (f.read m).map ParsedMinecraftVersion.fields = (g.read n).map ParsedMinecraftVersion.fields) ∧
    ∀ formats : List VersionFormat, formats.Perm versionFormats →
      ∀ (get_minecraft_versions : Except PyError (List MinecraftVersion)) (v1 v2 : String),
        compare_versions_with (parseWith formats) get_minecraft_versions v1 v2 =
          compare_versions get_minecraft_versions v1 v2 := by
  refine ⟨fun f hf g hg version m n hm hn => formats_agree hf hg hm hn, fun formats hperm get_minecraft_versions v1 v2 => ?_⟩
  have hforget : (fun v => (parseWith formats v).map (Option.map ParsedMinecraftVersion.forgetSystem)) =
      fun v => (parse_version v).map (Option.map ParsedMinecraftVersion.forgetSystem) :=
    funext (parseWith_forget fun _ => hperm.mem_iff)
  rw [← compare_versions_with_forget, hforget, compare_versions_with_forget, compare_versions]

set_option maxRecDepth 10000 in
/-- A release of two digits has an old and a new format, and is compared in the same way when the formats are reversed. -/
theorem order_of_formats_sample :
    (readMain .release .old ⟨"25.1".toList, [("major", "25".toList), ("minor", "1".toList)], []⟩).map ParsedMinecraftVersion.fields =
        (readMain .release .new ⟨"25.1".toList, [("major", "25".toList), ("minor", "1".toList)], []⟩).map
          ParsedMinecraftVersion.fields ∧
      compare_versions_with (parseWith versionFormats.reverse) (.ok []) "25.1" "25.2" = compare_versions (.ok []) "25.1" "25.2" := by
  have hmatches : ∀ f ∈ [Pattern.OLD_RELEASE_FORMAT, Pattern.NEW_RELEASE_FORMAT], f.match "25.1".toList =
      some ⟨"25.1".toList, [("major", "25".toList), ("minor", "1".toList)], []⟩ := by
    refine List.forall_mem_cons.mpr ⟨rfl, List.forall_mem_singleton.mpr rfl⟩
  exact ⟨order_of_formats_irrelevant.1 ⟨Pattern.OLD_RELEASE_FORMAT, readMain .release .old⟩ (mem_versionFormats.mpr ⟨.release, .old, rfl⟩)
      ⟨Pattern.NEW_RELEASE_FORMAT, readMain .release .new⟩ (mem_versionFormats.mpr ⟨.release, .new, rfl⟩) "25.1" _ _
      (hmatches _ (by simp)) (hmatches _ (by simp)),
    order_of_formats_irrelevant.2 _ versionFormats.reverse_perm (.ok []) "25.1" "25.2"⟩

end Backend
