import Mathlib.Logic.Relation
import Miniverse.Versions.Lemmas.Compare
import Miniverse.Versions.Lemmas.Order

/-!
# Chains of versions

The comparison uses the numbers and the stage where it can, and the dates of the publication list elsewhere. Versions
that are `Ranked` in their order were compared without dates.
-/

namespace Backend

open Lib

variable {all_versions : List MinecraftVersion} {u v w : String} {p q r : ParsedMinecraftVersion} {c : Int}

def ParsedMinecraftVersion.numbers (p : ParsedMinecraftVersion) : List Nat := [p.major, p.minor, p.patch]

def ParsedMinecraftVersion.IsOldSnapshot (p : ParsedMinecraftVersion) : Prop := p.type = .snapshot ∧ p.system = .old

/-- Lower numbers, or a prerelease of the release. -/
def Below (p q : ParsedMinecraftVersion) : Prop :=
  p.numbers < q.numbers ∨ p.numbers = q.numbers ∧ p.type = .prerelease ∧ q.type = .release

/-- Two prereleases that the comparison does not tell apart. -/
def Level (p q : ParsedMinecraftVersion) : Prop :=
  p.numbers = q.numbers ∧ p.type = .prerelease ∧ q.type = .prerelease ∧ p.suffix = q.suffix

/-- What is compared by dates. -/
def Dated (p q : ParsedMinecraftVersion) : Prop :=
  p.IsOldSnapshot ∨ q.IsOldSnapshot ∨
    p.numbers = q.numbers ∧ (p.type = .snapshot ∨ q.type = .snapshot ∨ p.type = .release ∧ q.type = .release)

/-! ## One comparison -/

/-- The ways in which two different texts are compared. -/
inductive Compared (all_versions : List MinecraftVersion) (u v : String) (p q : ParsedMinecraftVersion) :
    Except PyError (Option Int) → Prop
  | dated : Dated p q → Compared all_versions u v p q (compare_by_publish_date (.ok all_versions) u v)
  | below : ¬ p.IsOldSnapshot → ¬ q.IsOldSnapshot → Below p q → Compared all_versions u v p q (.ok (some (-1)))
  | above : ¬ p.IsOldSnapshot → ¬ q.IsOldSnapshot → Below q p → Compared all_versions u v p q (.ok (some 1))
  | level : ¬ p.IsOldSnapshot → ¬ q.IsOldSnapshot → Level p q → Compared all_versions u v p q (.ok (some 0))
  | unequal (e : PyError) : Compared all_versions u v p q (.error e)

theorem lexSign_cases {a b : List Nat} (h : a ≠ b) : a < b ∧ lexSign a b = -1 ∨ b < a ∧ lexSign a b = 1 := by
  unfold lexSign
  split
  · exact Or.inl ⟨‹_›, rfl⟩
  · split
    · exact Or.inr ⟨‹_›, rfl⟩
    · exact absurd (List.le_antisymm (List.not_lt.mp ‹_›) (List.not_lt.mp ‹_›)) h

theorem compared (all_versions : List MinecraftVersion) (hne : u ≠ v) (hp : parse_version u = .ok (some p)) (hq : parse_version v = .ok (some q)) :
    Compared all_versions u v p q (compare_versions (.ok all_versions) u v) := by
  unfold compare_versions compare_versions_with
  rw [if_neg hne, hp, hq]
  simp only [bind, Except.bind, pure, Except.pure]
  split
  · rename_i hold
    rcases hold with hold | hold
    · exact .dated (Or.inl hold)
    · exact .dated (Or.inr (Or.inl hold))
  · rename_i hold
    obtain ⟨hpold, hqold⟩ := not_or.mp hold
    rw [compare_main_versions_eq]
    by_cases hnumbers : p.numbers = q.numbers
    · have hsign : lexSign [p.major, p.minor, p.patch] [q.major, q.minor, q.patch] = 0 := lexSign_eq_zero.mpr hnumbers
      rw [hsign, if_neg (by simp)]
      cases hpt : p.type with
      | release =>
          cases hqt : q.type with
          | release => exact .dated (Or.inr (Or.inr ⟨hnumbers, Or.inr (Or.inr ⟨hpt, hqt⟩)⟩))
          | prerelease => exact .above hpold hqold (Or.inr ⟨hnumbers.symm, hqt, hpt⟩)
          | snapshot => exact .dated (Or.inr (Or.inr ⟨hnumbers, Or.inr (Or.inl hqt)⟩))
      | prerelease =>
          cases hqt : q.type with
          | release => exact .below hpold hqold (Or.inr ⟨hnumbers, hpt, hqt⟩)
          | prerelease =>
              by_cases hsuffix : p.suffix = q.suffix
              · rw [hsuffix, compare_prerelease_identifiers_same]
                exact .level hpold hqold ⟨hnumbers, hpt, hqt, hsuffix⟩
              · rw [compare_prerelease_identifiers_differ (parse_version_prerelease hp hpt).1
                  (parse_version_prerelease hq hqt).1 hsuffix]
                exact .unequal _
          | snapshot => exact .dated (Or.inr (Or.inr ⟨hnumbers, Or.inr (Or.inl hqt)⟩))
      | snapshot => exact .dated (Or.inr (Or.inr ⟨hnumbers, Or.inl hpt⟩))
    · rcases lexSign_cases hnumbers with ⟨hlt, hsign⟩ | ⟨hlt, hsign⟩
      · have hsign : lexSign [p.major, p.minor, p.patch] [q.major, q.minor, q.patch] = -1 := hsign
        rw [hsign, if_pos (by decide)]
        exact .below hpold hqold (Or.inl hlt)
      · have hsign : lexSign [p.major, p.minor, p.patch] [q.major, q.minor, q.patch] = 1 := hsign
        rw [hsign, if_pos (by decide)]
        exact .above hpold hqold (Or.inl hlt)

/-- A text that is accepted, and has a date in the publication list. -/
structure Listed (all_versions : List MinecraftVersion) (u : String) (p : ParsedMinecraftVersion) (date : DateTime) :
    Prop where
  parsed : parse_version u = .ok (some p)
  published : publishDate all_versions u = some date

theorem Listed.unique {d e : DateTime} (h : Listed all_versions u p d) (h' : Listed all_versions u q e) : p = q ∧ d = e := by
  have hp := h.parsed.symm.trans h'.parsed
  have hd := h.published.symm.trans h'.published
  simp only [Except.ok.injEq, Option.some.injEq] at hp hd
  exact ⟨hp, hd⟩

theorem sign_le_zero {a b : Int} : sign a b ≤ 0 ↔ a ≤ b := by
  unfold sign
  split <;> split <;> omega

/-- A comparison by dates with a result. -/
theorem compare_by_publish_date_some (hp : parse_version u = .ok (some p)) (hq : parse_version v = .ok (some q))
    (h : compare_by_publish_date (.ok all_versions) u v = .ok (some c)) :
    ∃ d e, Listed all_versions u p d ∧ Listed all_versions v q e ∧ c = sign d.time e.time := by
  unfold compare_by_publish_date at h
  cases hd : publishDate all_versions u with
  | none => simp [bind, Except.bind, pure, Except.pure, hd] at h
  | some d =>
      cases he : publishDate all_versions v with
      | none => simp [bind, Except.bind, pure, Except.pure, hd, he] at h
      | some e =>
          simp only [bind, Except.bind, pure, Except.pure, hd, he, compareDates] at h
          by_cases haware : d.aware = e.aware
          · simp only [haware, if_true, Except.ok.injEq, Option.some.injEq] at h
            exact ⟨d, e, ⟨hp, hd⟩, ⟨hq, he⟩, h.symm⟩
          · simp [haware] at h

/-! ## The dates and the numbers -/

/-- The dates do not contradict the rest of the comparison: what is below is older, and no version that is compared by
dates with two prereleases on one level lies between their dates. -/
structure DatesAgree (all_versions : List MinecraftVersion) : Prop where
  below : ∀ {u v p q d e}, Listed all_versions u p d → Listed all_versions v q e → ¬ p.IsOldSnapshot → ¬ q.IsOldSnapshot →
    Below p q → d.time < e.time
  level : ∀ {u v w p q r d e f}, Listed all_versions u p d → Listed all_versions v q e → Listed all_versions w r f →
    Level p q → Dated p r → (f.time ≤ d.time ↔ f.time ≤ e.time) ∧ (d.time ≤ f.time ↔ e.time ≤ f.time)

theorem below_of_left (hpq : Below p q ∨ Level p q) (hqr : Below q r) : Below p r := by
  rcases hpq with (hlt | ⟨heq, hp, hq⟩) | ⟨heq, hp, hq, _⟩
  · rcases hqr with hlt' | ⟨heq', _, _⟩
    · exact Or.inl (List.lt_trans hlt hlt')
    · exact Or.inl (heq' ▸ hlt)
  · rcases hqr with hlt' | ⟨_, hq', _⟩
    · exact Or.inl (heq ▸ hlt')
    · rw [hq] at hq'
      cases hq'
  · rcases hqr with hlt' | ⟨heq', _, hr⟩
    · exact Or.inl (heq ▸ hlt')
    · exact Or.inr ⟨heq.trans heq', hp, hr⟩

theorem below_of_right (hpq : Below p q) (hqr : Level q r) : Below p r := by
  obtain ⟨heq', hq', _, _⟩ := hqr
  rcases hpq with hlt | ⟨_, _, hq⟩
  · exact Or.inl (heq' ▸ hlt)
  · rw [hq] at hq'
    cases hq'

theorem below_trans (hpq : Below p q ∨ Level p q) (hqr : Below q r ∨ Level q r) : Below p r ∨ Level p r := by
  rcases hqr with hqr | hqr
  · exact Or.inl (below_of_left hpq hqr)
  · rcases hpq with hpq | ⟨heq, hp, _, hs⟩
    · exact Or.inl (below_of_right hpq hqr)
    · obtain ⟨heq', _, hr, hs'⟩ := hqr
      exact Or.inr ⟨heq.trans heq', hp, hr, hs.trans hs'⟩

theorem below_irrefl : ¬ Below p p := by
  rintro (hlt | ⟨_, hp, hp'⟩)
  · exact List.lt_irrefl _ hlt
  · rw [hp] at hp'
    cases hp'

theorem Dated.symm (h : Dated p q) : Dated q p := by
  rcases h with h | h | ⟨heq, h | h | ⟨hp, hq⟩⟩
  · exact Or.inr (Or.inl h)
  · exact Or.inl h
  · exact Or.inr (Or.inr ⟨heq.symm, Or.inr (Or.inl h)⟩)
  · exact Or.inr (Or.inr ⟨heq.symm, Or.inl h⟩)
  · exact Or.inr (Or.inr ⟨heq.symm, Or.inr (Or.inr ⟨hq, hp⟩)⟩)

/-- What is compared by dates with a prerelease is a snapshot. -/
theorem Dated.of_prerelease (hp : p.type = .prerelease) (h : Dated p q) :
    q.IsOldSnapshot ∨ p.numbers = q.numbers ∧ q.type = .snapshot := by
  rcases h with ⟨h, _⟩ | h | ⟨heq, h | h | ⟨h, _⟩⟩
  · rw [hp] at h
    cases h
  · exact Or.inl h
  · rw [hp] at h
    cases h
  · exact Or.inr ⟨heq, h⟩
  · rw [hp] at h
    cases h

theorem Dated.not_prerelease (hp : p.type = .prerelease) (hq : q.type = .prerelease) : ¬ Dated p q := by
  intro h
  rcases h.of_prerelease hp with ⟨h, _⟩ | ⟨_, h⟩
  · rw [hq] at h
    cases h
  · rw [hq] at h
    cases h

theorem Dated.of_level (hpq : Level p q) (h : Dated q r) : Dated p r := by
  obtain ⟨heq, _, hq, _⟩ := hpq
  rcases h.of_prerelease hq with h | ⟨heq', h⟩
  · exact Or.inr (Or.inl h)
  · exact Or.inr (Or.inr ⟨heq.trans heq', Or.inr (Or.inl h)⟩)

/-- Equal texts, or compared without dates. -/
inductive Ranked : String → String → Prop
  | refl (u : String) : Ranked u u
  | numbered {u v : String} {p q : ParsedMinecraftVersion} : parse_version u = .ok (some p) →
      parse_version v = .ok (some q) → ¬ p.IsOldSnapshot → ¬ q.IsOldSnapshot → Below p q ∨ Level p q → Ranked u v

theorem Ranked.trans (huv : Ranked u v) (hvw : Ranked v w) : Ranked u w := by
  cases huv with
  | refl => exact hvw
  | numbered hp hq hpold hqold hpq =>
      cases hvw with
      | refl => exact .numbered hp hq hpold hqold hpq
      | numbered hq' hr _ hrold hqr =>
          rw [hq, Except.ok.injEq, Option.some.injEq] at hq'
          subst hq'
          exact .numbered hp hr hpold hrold (below_trans hpq hqr)

/-- What is at most as high as a text below another one is below it too. -/
theorem Ranked.below_left (h : Ranked u v) (hq : parse_version v = .ok (some q)) (hqold : ¬ q.IsOldSnapshot) (hqr : Below q r) :
    ∃ p, parse_version u = .ok (some p) ∧ ¬ p.IsOldSnapshot ∧ Below p r := by
  cases h with
  | refl => exact ⟨q, hq, hqold, hqr⟩
  | numbered hp hq' hpold _ hpq =>
      rw [hq, Except.ok.injEq, Option.some.injEq] at hq'
      subst hq'
      exact ⟨_, hp, hpold, below_of_left hpq hqr⟩

theorem Ranked.below_right (h : Ranked u v) (hp : parse_version u = .ok (some p)) (hpold : ¬ p.IsOldSnapshot)
    (hrp : Below r p) : ∃ q, parse_version v = .ok (some q) ∧ ¬ q.IsOldSnapshot ∧ Below r q := by
  cases h with
  | refl => exact ⟨p, hp, hpold, hrp⟩
  | numbered hp' hq _ hqold hpq =>
      rw [hp, Except.ok.injEq, Option.some.injEq] at hp'
      subst hp'
      rcases hpq with hpq | hpq
      · exact ⟨_, hq, hqold, below_of_left (Or.inl hrp) hpq⟩
      · exact ⟨_, hq, hqold, below_of_right hrp hpq⟩

variable (hagree : DatesAgree all_versions)

include hagree

theorem Ranked.dates {d e : DateTime} (h : Ranked u v) (hu : Listed all_versions u p d) (hv : Listed all_versions v q e) :
    d.time ≤ e.time ∨ Level p q := by
  cases h with
  | refl =>
      obtain ⟨_, rfl⟩ := hu.unique hv
      exact Or.inl (Int.le_refl _)
  | numbered hp hq hpold hqold hpq =>
      have hpp := hu.parsed.symm.trans hp
      have hqq := hv.parsed.symm.trans hq
      simp only [Except.ok.injEq, Option.some.injEq] at hpp hqq
      subst hpp hqq
      rcases hpq with hbelow | hlevel
      · exact Or.inl (Int.le_of_lt (hagree.below hu hv hpold hqold hbelow))
      · exact Or.inr hlevel

/-! ## Chains -/

omit hagree

/-- The guard of a change of the game version. -/
def Passes (all_versions : List MinecraftVersion) (u v : String) : Prop :=
  ∃ c, compare_versions (.ok all_versions) u v = .ok (some c) ∧ c ≤ 0

/-- Where a chain can lead: without dates, or through two dates in order. -/
inductive Reached (all_versions : List MinecraftVersion) (u v : String) : Prop
  | ranked : Ranked u v → Reached all_versions u v
  | dated {x y : String} {p q : ParsedMinecraftVersion} {d e : DateTime} : Ranked u x → Listed all_versions x p d →
      Listed all_versions y q e → d.time ≤ e.time → Ranked y v → Reached all_versions u v

/-- One step: without dates, or by two dates in order. -/
theorem passes_cases (h : Passes all_versions u v) :
    Ranked u v ∨ ∃ p q d e, Listed all_versions u p d ∧ Listed all_versions v q e ∧ Dated p q ∧ d.time ≤ e.time := by
  obtain ⟨c, hc, hle⟩ := h
  by_cases hne : u = v
  · subst hne
    exact Or.inl (.refl u)
  · obtain ⟨p, q, hp, hq⟩ := compare_versions_both hne hc
    have hcompared := compared all_versions hne hp hq
    generalize hresult : compare_versions (.ok all_versions) u v = result at hcompared hc
    cases hcompared with
    | dated hdated =>
        obtain ⟨d, e, hd, he, rfl⟩ := compare_by_publish_date_some hp hq hc
        exact Or.inr ⟨p, q, d, e, hd, he, hdated, sign_le_zero.mp hle⟩
    | below hpold hqold hbelow => exact Or.inl (.numbered hp hq hpold hqold (Or.inl hbelow))
    | above _ _ _ =>
        cases hc
        exact absurd hle (by decide)
    | level hpold hqold hlevel => exact Or.inl (.numbered hp hq hpold hqold (Or.inr hlevel))
    | unequal => cases hc

include hagree

theorem Reached.step (h : Reached all_versions u v) (hstep : Passes all_versions v w) : Reached all_versions u w := by
  rcases passes_cases hstep with hranked | ⟨q, r, e, f, he, hf, hdated, hle⟩
  · cases h with
    | ranked huv => exact .ranked (huv.trans hranked)
    | dated hux hx hy hxy hyv => exact .dated hux hx hy hxy (hyv.trans hranked)
  · cases h with
    | ranked huv => exact .dated huv he hf hle (.refl w)
    | dated hux hx hy hxy hyv =>
        rcases hyv.dates hagree hy he with hye | hlevel
        · exact .dated hux hx hf (Int.le_trans hxy (Int.le_trans hye hle)) (.refl w)
        · have hyf := (hagree.level hy he hf hlevel (hdated.of_level hlevel)).2.mpr hle
          exact .dated hux hx hf (Int.le_trans hxy hyf) (.refl w)

theorem reached_of_chain (h : Relation.ReflTransGen (Passes all_versions) u v) : Reached all_versions u v := by
  induction h with
  | refl => exact .ranked (.refl u)
  | tail _ hstep ih => exact ih.step hagree hstep

/-- By dates, what is reached is not older. -/
theorem Reached.dates {d e : DateTime} (h : Reached all_versions u v) (hu : Listed all_versions u p d)
    (hv : Listed all_versions v q e) (hdated : Dated p q) : d.time ≤ e.time := by
  cases h with
  | ranked huv =>
      rcases huv.dates hagree hu hv with hle | ⟨_, hp, hq, _⟩
      · exact hle
      · exact absurd hdated (Dated.not_prerelease hp hq)
  | dated hux hx hy hxy hyv =>
      rcases hux.dates hagree hu hx with hdx | hlevel
      · rcases hyv.dates hagree hy hv with hye | hlevel'
        · exact Int.le_trans hdx (Int.le_trans hxy hye)
        · exact (hagree.level hy hv hu hlevel' (Dated.of_level hlevel' hdated.symm)).1.mp (Int.le_trans hdx hxy)
      · rcases hyv.dates hagree hy hv with hye | ⟨_, _, hq, _⟩
        · exact (hagree.level hu hx hv hlevel hdated).2.mpr (Int.le_trans hxy hye)
        · exact absurd hdated (Dated.not_prerelease hlevel.2.1 hq)

/-- By the numbers and the stage, what is reached is not below. -/
theorem Reached.not_below (h : Reached all_versions u v) (hp : parse_version u = .ok (some p))
    (hq : parse_version v = .ok (some q)) (hpold : ¬ p.IsOldSnapshot) (hqold : ¬ q.IsOldSnapshot) :
    ¬ Below q p := by
  intro hbelow
  cases h with
  | ranked huv =>
      obtain ⟨q', hq', _, hbelow'⟩ := huv.below_right hp hpold hbelow
      rw [hq, Except.ok.injEq, Option.some.injEq] at hq'
      subst hq'
      exact below_irrefl hbelow'
  | dated hux hx hy hxy hyv =>
      obtain ⟨x, hx', hxold, hbelow⟩ := hux.below_right hp hpold hbelow
      obtain ⟨y, hy', hyold, hbelow⟩ := hyv.below_left hq hqold hbelow
      have hxx := hx.parsed.symm.trans hx'
      have hyy := hy.parsed.symm.trans hy'
      simp only [Except.ok.injEq, Option.some.injEq] at hxx hyy
      subst hxx hyy
      have := hagree.below hy hx hyold hxold hbelow
      omega

end Backend
