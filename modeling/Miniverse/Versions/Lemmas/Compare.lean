import Miniverse.Versions.Lemmas.Parse

/-!
# When a comparison returns
-/

namespace Backend

open Lib

variable {all_versions : List MinecraftVersion} {v1 v2 : String}

/-- Every date of the list carries its time zone. -/
def AllAware (all_versions : List MinecraftVersion) : Prop := ∀ v ∈ all_versions, v.date.aware = true

theorem publishDate_aware (haware : AllAware all_versions) {version : String} {date : DateTime}
    (h : publishDate all_versions version = some date) : date.aware = true := by
  obtain ⟨v, hv, rfl⟩ := Option.map_eq_some_iff.mp h
  exact haware v (List.mem_of_find?_eq_some hv)

theorem compare_by_publish_date_ok (haware : AllAware all_versions) (v1 v2 : String) :
    ∃ c, compare_by_publish_date (.ok all_versions) v1 v2 = .ok c := by
  unfold compare_by_publish_date
  cases h1 : publishDate all_versions v1 with
  | none => exact ⟨none, by simp [bind, Except.bind, h1, pure, Except.pure]⟩
  | some d1 =>
      cases h2 : publishDate all_versions v2 with
      | none => exact ⟨none, by simp [bind, Except.bind, h1, h2, pure, Except.pure]⟩
      | some d2 =>
          refine ⟨some (sign d1.time d2.time), ?_⟩
          simp [bind, Except.bind, pure, Except.pure, h1, h2, compareDates, publishDate_aware haware h1,
            publishDate_aware haware h2]

/-- Both versions of a comparison with a result were accepted by the parser. -/
theorem compare_versions_both {get_minecraft_versions : Except PyError (List MinecraftVersion)} {c : Int} (hne : v1 ≠ v2)
    (h : compare_versions get_minecraft_versions v1 v2 = .ok (some c)) :
    ∃ p1 p2, parse_version v1 = .ok (some p1) ∧ parse_version v2 = .ok (some p2) := by
  unfold compare_versions compare_versions_with at h
  rw [if_neg hne] at h
  cases h1 : parse_version v1 with
  | error e => simp [h1, bind, Except.bind] at h
  | ok p1 =>
      cases h2 : parse_version v2 with
      | error e => simp [h1, h2, bind, Except.bind] at h
      | ok p2 =>
          cases p2 with
          | none => simp [h1, h2, bind, Except.bind, pure, Except.pure] at h
          | some p2 =>
              cases p1 with
              | none => simp [h1, h2, bind, Except.bind, throw, throwThe, MonadExceptOf.throw] at h
              | some p1 => exact ⟨p1, p2, rfl, rfl⟩

theorem compare_versions_parsed {get_minecraft_versions : Except PyError (List MinecraftVersion)} {c : Int} (hne : v1 ≠ v2)
    (h : compare_versions get_minecraft_versions v1 v2 = .ok (some c)) : ∃ p, parse_version v2 = .ok (some p) := by
  obtain ⟨_, p2, _, h2⟩ := compare_versions_both hne h
  exact ⟨p2, h2⟩

/-- The text has one of the formats. -/
def Accepted (version : String) : Prop := ∃ p, parse_version version = .ok (some p)

/-- The second text has no format, and the first can be parsed. -/
def Reported (v1 v2 : String) : Prop := parse_version v2 = .ok none ∧ ∃ p, parse_version v1 = .ok p

/-- A comparison with a text that is not accepted finds nothing or raises. -/
theorem compare_versions_invalid (get_minecraft_versions : Except PyError (List MinecraftVersion)) (hne : v1 ≠ v2)
    (hinvalid : ¬ Accepted v1 ∨ ¬ Accepted v2) :
    compare_versions get_minecraft_versions v1 v2 = .ok none ∧ Reported v1 v2 ∨
      (∃ e, compare_versions get_minecraft_versions v1 v2 = .error e ∧ (e = .attributeError ∨ ∃ message, e = .valueError message)) ∧
        ¬ Reported v1 v2 := by
  unfold compare_versions compare_versions_with
  rw [if_neg hne]
  cases h1 : parse_version v1 with
  | error e =>
      refine Or.inr ⟨⟨e, rfl, Or.inr (onlyValueErrors_parse_version v1 e h1)⟩, fun ⟨_, p, hp⟩ => ?_⟩
      rw [h1] at hp
      cases hp
  | ok p1 =>
      cases h2 : parse_version v2 with
      | error e =>
          refine Or.inr ⟨⟨e, rfl, Or.inr (onlyValueErrors_parse_version v2 e h2)⟩, fun ⟨hnone, _⟩ => ?_⟩
          rw [h2] at hnone
          cases hnone
      | ok p2 =>
          cases p2 with
          | none => exact Or.inl ⟨rfl, h2, p1, h1⟩
          | some p2 =>
              cases p1 with
              | none =>
                  refine Or.inr ⟨⟨.attributeError, rfl, Or.inl rfl⟩, fun ⟨hnone, _⟩ => ?_⟩
                  rw [h2] at hnone
                  cases hnone
              | some p1 =>
                  rcases hinvalid with hinvalid | hinvalid
                  · exact absurd ⟨p1, h1⟩ hinvalid
                  · exact absurd ⟨p2, h2⟩ hinvalid

/-- An accepted version can be compared with a release. -/
theorem compare_with_release (haware : AllAware all_versions) {p1 p2 : ParsedMinecraftVersion}
    (h1 : parse_version v1 = .ok (some p1)) (h2 : parse_version v2 = .ok (some p2)) (hrelease : p2.type = .release) :
    ∃ c, compare_versions (.ok all_versions) v1 v2 = .ok c := by
  unfold compare_versions compare_versions_with
  by_cases heq : v1 = v2
  · exact ⟨_, by rw [if_pos heq]⟩
  · rw [if_neg heq, h1, h2]
    simp only [bind, Except.bind]
    split
    · exact compare_by_publish_date_ok haware v1 v2
    · split
      · exact ⟨_, rfl⟩
      · cases hp1 : p1.type with
        | prerelease => simp [hrelease, pure, Except.pure]
        | release => simpa [hrelease] using compare_by_publish_date_ok haware v1 v2
        | snapshot => simpa [hrelease] using compare_by_publish_date_ok haware v1 v2

end Backend
