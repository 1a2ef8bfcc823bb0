import Miniverse.Requests.Lemmas.Protocol

/-!
# Starts alone and stops alone

The invariants of a run in which no stop overlaps a start or a restart.
-/

namespace Backend

namespace Requests

open Lib

variable {ι : Type} {name : String} {own : String → Prop} {status : ι → Status} {s s' : Server}
variable {t' : Status} {i : ι}

/-- Only starts and restarts are under way. -/
structure StartMode (name : String) (status : ι → Status) (s : Server) : Prop where
  no_stop : ∀ i, ¬ (status i).Stops
  set : s.started = true ∨ ∃ i, (status i).WillSet
  recorded : (∃ i, (status i).WillRecord s.container_id) ∨
    (∃ i found, status i = .recorded found ∧ s.container_id = some found) ∨ s.Known name

/-- Only stops are under way. -/
structure StopMode (name : String) (status : ι → Status) (s : Server) : Prop where
  no_start : ∀ i, ¬ (status i).Starts
  running : ∀ c ∈ s.containers, c.name = name → c.running = true → s.container_id = some c.id ∧ s.started = true
  started : s.started = true → s.Runs name ∨
    ∃ i container_id, status i = .stop false true container_id ∨ status i = .stopped false true container_id
  stop : ∀ i started container_id, status i = .stop false started container_id → (s.started = true → started = true) ∧
    ∀ c ∈ s.containers, c.name = name → c.running = true → container_id = some c.id
  stopped : ∀ i started container_id, status i = .stopped false started container_id →
    (s.started = true → started = true) ∧ ¬ s.Runs name

/-- The row and the daemon agree. -/
def Server.Agrees (name : String) (s : Server) : Prop :=
  (s.started = true ↔ s.Runs name) ∧ ∀ c ∈ s.containers, c.name = name → c.running = true → s.container_id = some c.id

/-! ## Agreement -/

/-- When no start is under way any more, the row and the daemon agree. -/
theorem StartMode.agrees (h : StartMode name status s) (hdaemon : Daemon name own s.containers)
    (hstart : ∀ i, ¬ (status i).Starts) : s.Agrees name := by
  have hset : s.started = true := by
    refine h.set.resolve_right fun ⟨i, hi⟩ => hstart i ?_
    cases hstatus : status i <;> rw [hstatus] at hi <;> first | exact hi | exact trivial
  have hknown : s.Known name := by
    rcases h.recorded with ⟨i, hi⟩ | ⟨i, found, hi, _⟩ | hknown
    · refine absurd ?_ (hstart i)
      cases hstatus : status i <;> rw [hstatus] at hi <;> first | exact hi | exact trivial
    · exact absurd (hi ▸ trivial) (hstart i)
    · exact hknown
  obtain ⟨c, hc, hname, hrunning, hid⟩ := hknown
  refine ⟨iff_of_true hset ⟨c, hc, hname, hrunning⟩, fun c' hc' hname' _ => ?_⟩
  rw [hid, hdaemon.once c hc c' hc' hname hname']

/-- When no stop is under way any more, the row and the daemon agree. -/
theorem StopMode.agrees (h : StopMode name status s) (hstop : ∀ i, ¬ (status i).Stops) : s.Agrees name := by
  refine ⟨⟨fun hstarted => ?_, fun ⟨c, hc, hname, hrunning⟩ => (h.running c hc hname hrunning).2⟩,
    fun c hc hname hrunning => (h.running c hc hname hrunning).1⟩
  rcases h.started hstarted with hruns | ⟨i, _, hi | hi⟩
  · exact hruns
  · exact absurd (hi ▸ rfl) (hstop i)
  · exact absurd (hi ▸ rfl) (hstop i)

/-- When nothing is under way, only stops are. -/
theorem StopMode.of_agrees (h : s.Agrees name) (hstart : ∀ i, ¬ (status i).Starts) (hstop : ∀ i, ¬ (status i).Stops) :
    StopMode name status s where
  no_start := hstart
  running c hc hname hrunning := ⟨h.2 c hc hname hrunning, h.1.mpr ⟨c, hc, hname, hrunning⟩⟩
  started hstarted := Or.inl (h.1.mp hstarted)
  stop j _ _ hj := absurd (hj ▸ rfl) (hstop j)
  stopped j _ _ hj := absurd (hj ▸ rfl) (hstop j)

/-! ## Starts -/

section Steps

variable [DecidableEq ι]

theorem StartMode.step (h : StartMode name status s) (hmove : Moves name own (status i) s t' s')
    (hdaemon : Daemon name own s.containers) (hown : (status i).Own own) (hraised : t' ≠ .raised) (hstop : ¬ t'.Stops) :
    StartMode name (Function.update status i t') s' where
  no_stop := (Function.forall_update_iff status fun _ t => ¬ t.Stops).mpr ⟨hstop, fun j _ => h.no_stop j⟩
  set := by
    rcases hmove.sets (h.no_stop i) hraised with hs | hset | ⟨hsame, hno⟩
    · exact Or.inl hs
    · exact Or.inr ⟨i, by rwa [Function.update_self]⟩
    · rw [hsame]
      refine h.set.imp id fun ⟨j, hj⟩ => ⟨j, ?_⟩
      have hne : j ≠ i := fun heq => hno (heq ▸ hj)
      rwa [Function.update_of_ne hne]
  recorded := by
    rcases hmove.records hdaemon hown (h.no_stop i) hraised with hrecord | ⟨found, hfound, hid⟩ | hknown | ⟨hsame, hno, hno'⟩
    · exact Or.inl ⟨i, by rwa [Function.update_self]⟩
    · exact Or.inr (Or.inl ⟨i, found, by rwa [Function.update_self], hid⟩)
    · exact Or.inr (Or.inr hknown)
    · rcases h.recorded with ⟨j, hj⟩ | ⟨j, found, hj, hid⟩ | hknown
      · have hne : j ≠ i := fun heq => hno (heq ▸ hj)
        exact Or.inl ⟨j, by rwa [Function.update_of_ne hne, hsame]⟩
      · have hne : j ≠ i := fun heq => hno' found (heq ▸ hj) hid
        exact Or.inr (Or.inl ⟨j, found, by rwa [Function.update_of_ne hne], hsame.trans hid⟩)
      · rcases hmove.known (h.no_stop i) hsame hknown with hknown | hrecord
        · exact Or.inr (Or.inr hknown)
        · exact Or.inl ⟨i, by rwa [Function.update_self]⟩

/-- A start or a restart arrives while no stop is under way. -/
theorem StartMode.arrive (hstop : ∀ j, ¬ (status j).Stops) (harrives : t' = .start s.started ∨
    t' = .stop true s.started s.container_id) : StartMode name (Function.update status i t') s where
  no_stop := by
    refine (Function.forall_update_iff status fun _ t => ¬ t.Stops).mpr ⟨?_, fun j _ => hstop j⟩
    rcases harrives with rfl | rfl
    · exact id
    · exact fun h => nomatch h
  set := by
    cases hstarted : s.started with
    | true => exact Or.inl rfl
    | false =>
        refine Or.inr ⟨i, ?_⟩
        rw [Function.update_self]
        rcases harrives with rfl | rfl
        · exact hstarted
        · exact rfl
  recorded := by
    refine Or.inl ⟨i, ?_⟩
    rw [Function.update_self]
    rcases harrives with rfl | rfl
    · exact trivial
    · exact rfl

/-! ## Stops -/

/-- A stop arrives, and knows what the row says. -/
theorem StopMode.arrive (h : StopMode name status s) :
    StopMode name (Function.update status i (.stop false s.started s.container_id)) s where
  no_start := (Function.forall_update_iff status fun _ t => ¬ t.Starts).mpr ⟨fun h => (nomatch h), fun j _ => h.no_start j⟩
  running := h.running
  started hstarted := by
    refine Or.inr ⟨i, s.container_id, Or.inl ?_⟩
    rw [Function.update_self, hstarted]
  stop j started container_id hj := by
    by_cases hji : j = i
    · subst hji
      rw [Function.update_self] at hj
      cases hj
      exact ⟨id, fun c hc hname hrunning => (h.running c hc hname hrunning).1⟩
    · rw [Function.update_of_ne hji] at hj
      exact h.stop j started container_id hj
  stopped j started container_id hj := by
    have hji : j ≠ i := by
      rintro rfl
      rw [Function.update_self] at hj
      cases hj
    rw [Function.update_of_ne hji] at hj
    exact h.stopped j started container_id hj

/-- A request that is not a stop ends. -/
theorem StopMode.stay (h : StopMode name status s) (hi : status i = t') : StopMode name (Function.update status i t') s := by
  rwa [← hi, Function.update_eq_self]

/-- The container that a stop knows is stopped. -/
theorem StopMode.stopContainer (h : StopMode name status s) (hdaemon : Daemon name own s.containers) (hempty : ¬ own "")
    {started : Bool} {container_id : Option String} (hi : status i = .stop false started container_id) :
    StopMode name (Function.update status i (.stopped false started container_id)) { s with
      containers := s.containers.filter fun c => decide (truthy container_id ≠ some c.id ∨ c.running = false) } := by
  obtain ⟨hloaded, hall⟩ := h.stop i started container_id hi
  have hnone : ∀ c ∈ s.containers.filter fun c => decide (truthy container_id ≠ some c.id ∨ c.running = false),
      c.name = name → c.running = true → False := by
    intro c hc hname hrunning
    obtain ⟨hc, hleft⟩ := List.mem_filter.mp hc
    have hne : c.id ≠ "" := fun heq => hempty (heq ▸ (hdaemon.owned c hc).mpr hname)
    rcases of_decide_eq_true hleft with hother | hstill
    · refine hother ?_
      rw [hall c hc hname hrunning, truthy, Option.filter_some, if_pos (decide_eq_true hne)]
    · rw [hrunning] at hstill
      cases hstill
  refine ⟨(Function.forall_update_iff status fun _ t => ¬ t.Starts).mpr ⟨fun h => (nomatch h), fun j _ => h.no_start j⟩,
    fun c hc hname hrunning => (hnone c hc hname hrunning).elim, fun hstarted => ?_, fun j started' container_id' hj => ?_,
    fun j started' container_id' hj => ?_⟩
  · refine Or.inr ⟨i, container_id, Or.inr ?_⟩
    rw [Function.update_self, hloaded hstarted]
  · have hji : j ≠ i := by
      rintro rfl
      rw [Function.update_self] at hj
      cases hj
    rw [Function.update_of_ne hji] at hj
    exact ⟨(h.stop j started' container_id' hj).1, fun c hc hname hrunning => (hnone c hc hname hrunning).elim⟩
  · refine ⟨?_, fun ⟨c, hc, hname, hrunning⟩ => hnone c hc hname hrunning⟩
    by_cases hji : j = i
    · subst hji
      rw [Function.update_self] at hj
      cases hj
      exact hloaded
    · rw [Function.update_of_ne hji] at hj
      exact (h.stopped j started' container_id' hj).1

/-- A stop writes what it has done into the row. -/
theorem StopMode.record (h : StopMode name status s) {started : Bool} {container_id : Option String}
    (hi : status i = .stopped false started container_id) :
    StopMode name (Function.update status i .ended) { s with
      started := if started then false else s.started
      container_id := if container_id = none then s.container_id else none } := by
  obtain ⟨hloaded, hnone⟩ := h.stopped i started container_id hi
  have hcleared : (if started then false else s.started) = false := by
    cases started with
    | true => rfl
    | false =>
        cases hstarted : s.started with
        | true => exact absurd (hloaded hstarted) (by decide)
        | false => rfl
  have hno : ¬ (if started then false else s.started) = true := by rw [hcleared]; decide
  refine ⟨(Function.forall_update_iff status fun _ t => ¬ t.Starts).mpr ⟨id, fun j _ => h.no_start j⟩,
    fun c hc hname hrunning => absurd ⟨c, hc, hname, hrunning⟩ hnone, fun hstarted => absurd hstarted hno,
    fun j started' container_id' hj => ⟨fun hstarted => absurd hstarted hno, fun c hc hname hrunning =>
      absurd ⟨c, hc, hname, hrunning⟩ hnone⟩,
    fun j started' container_id' hj => ⟨fun hstarted => absurd hstarted hno, hnone⟩⟩

theorem StopMode.step (h : StopMode name status s) (hmove : Moves name own (status i) s t' s')
    (hdaemon : Daemon name own s.containers) (hempty : ¬ own "") (hraised : t' ≠ .raised) (hstart : ¬ t'.Starts) :
    StopMode name (Function.update status i t') s' := by
  have hno := h.no_start i
  cases hi : status i with
  | waiting r =>
      rw [hi] at hmove
      cases hmove with
      | stay _ _ harrived => exact absurd rfl (harrived r)
      | raise => exact absurd rfl hraised
      | arrive_start => exact absurd trivial hstart
      | arrive_stop => exact h.arrive
      | arrive_restart => exact absurd rfl hstart
  | stop again started container_id =>
      rw [hi] at hmove hno
      cases hmove with
      | stay => exact h.stay hi
      | raise => exact absurd rfl hraised
      | stop =>
          cases again with
          | false => exact h.stopContainer hdaemon hempty hi
          | true => exact absurd rfl hno
  | stopped again started container_id =>
      rw [hi] at hmove hno
      cases hmove with
      | stay => exact h.stay hi
      | raise => exact absurd rfl hraised
      | record_stop =>
          cases again with
          | false => exact h.record hi
          | true => exact absurd rfl hno
  | ended =>
      rw [hi] at hmove
      cases hmove with
      | stay => exact h.stay hi
      | raise => exact absurd rfl hraised
  | raised =>
      rw [hi] at hmove
      cases hmove with
      | stay => exact absurd rfl hraised
      | raise => exact absurd rfl hraised
  | _ =>
      rw [hi] at hno
      exact absurd trivial hno

end Steps

/-! ## Both -/

/-- In a run without exceptions, with the starts apart from the stops. -/
structure Served (name : String) (own : String → Prop) (status : ι → Status) (s : Server) : Prop where
  daemon : Daemon name own s.containers
  owns : ∀ i, (status i).Own own
  mode : StartMode name status s ∨ StopMode name status s

/-- A request arrives only while nothing of the other kind is under way. -/
def Apart (status : ι → Status) (i : ι) : Prop :=
  ∀ r, status i = .waiting r → if r = .stop then ∀ j, ¬ (status j).Starts else ∀ j, ¬ (status j).Stops

theorem Served.agrees (h : Served name own status s) (hended : ∀ i, ¬ (status i).Starts ∧ ¬ (status i).Stops) :
    s.Agrees name := by
  rcases h.mode with hmode | hmode
  · exact hmode.agrees h.daemon fun i => (hended i).1
  · exact hmode.agrees fun i => (hended i).2

theorem Served.step [DecidableEq ι] (h : Served name own status s) (hempty : ¬ own "") (hmove : Moves name own (status i) s t' s')
    (hapart : Apart status i) (hraised : t' ≠ .raised) : Served name own (Function.update status i t') s' where
  daemon := hmove.daemon h.daemon
  owns := (Function.forall_update_iff status fun _ t => t.Own own).mpr ⟨hmove.owns h.daemon (h.owns i), fun j _ => h.owns j⟩
  mode := by
    rcases h.mode with hmode | hmode
    · by_cases hwait : status i = .waiting .stop
      · have hstart : ∀ j, ¬ (status j).Starts := hapart .stop hwait
        have hstop : StopMode name status s := .of_agrees (hmode.agrees h.daemon hstart) hstart hmode.no_stop
        refine Or.inr (hstop.step hmove h.daemon hempty hraised (hmove.not_starts (hstart i) fun r hr => ?_))
        rw [hwait] at hr
        cases hr
        rfl
      · exact Or.inl (hmode.step hmove h.daemon (h.owns i) hraised (hmove.not_stops (hmode.no_stop i) hwait))
    · by_cases hwait : ∀ r, status i = .waiting r → r = .stop
      · exact Or.inr (hmode.step hmove h.daemon hempty hraised (hmove.not_starts (hmode.no_start i) hwait))
      · obtain ⟨r, hr⟩ := not_forall.mp hwait
        obtain ⟨hr, hne⟩ := Classical.not_imp.mp hr
        have hstop : ∀ j, ¬ (status j).Stops := by
          have hapart := hapart r hr
          rwa [if_neg hne] at hapart
        rw [hr] at hmove
        cases hmove with
        | stay _ _ harrived => exact absurd rfl (harrived r)
        | raise => exact absurd rfl hraised
        | arrive_start => exact Or.inl (.arrive hstop (Or.inl rfl))
        | arrive_stop => exact absurd rfl hne
        | arrive_restart => exact Or.inl (.arrive hstop (Or.inr rfl))

end Requests

end Backend
