import Miniverse.Requests.Lemmas.Admins
import Miniverse.Requests.Lemmas.Installs
import Miniverse.Requests.Lemmas.Programs

/-!
# Theorems about requests that overlap
-/

namespace Backend

open Lib

variable {α ι : Type} {env : Env α} {id : Uuid4} {w : World α}

/-- The row says that the server is started if and only if it runs, and then knows its container. -/
def World.AgreesWithDocker (w : World α) (id : Uuid4) : Prop :=
  ∃ r, w.db.findMiniverse id.str = some r ∧ (r.started = true ↔ ServerRunning w id) ∧
    ∀ c ∈ w.containers, c.name = container_name_of id → c.running = true → r.container_id = some c.id

/-- A daemon that carries out what it is asked, uses names and identifiers once, and has no container but the miniverse's
whose name holds that of the miniverse. -/
structure Tidy (env : Env α) (id : Uuid4) (w : World α) : Prop where
  docker : TruthfulDocker env
  names : (w.containers.map (·.name)).Nodup
  ids : (w.containers.map (·.id)).Nodup
  nonempty : ∀ c ∈ w.containers, c.id ≠ ""
  named : ∀ c ∈ w.containers, (container_name_of id).toList <:+: c.name.toList → c.name = container_name_of id
  new : ∀ n, env.container_id n ≠ "" ∧ ∀ c ∈ w.containers, c.id ≠ env.container_id n

/-- The requests at work on a miniverse. -/
abbrev ServerRequests (α ι : Type) := Arrivals (World α) ι (Except PyError Unit)

/-- One step of a request. -/
def ServerRequests.take [DecidableEq ι] (env : Env α) (id : Uuid4) (request : ι → ServerRequest) (i : ι) :
    Eff (ServerRequests α ι) Empty Unit :=
  Arrivals.take (fun i => ((request i).program env id).run) i

/-- A stop arrives while no start or restart is at work, and a start or a restart while no stop is. -/
def ArrivesApart (request : ι → ServerRequest) (c : ServerRequests α ι) (i : ι) : Prop :=
  c.thread i = none → ∀ j, c.Active j → (request j = .stop ↔ request i = .stop)

/-- Every request that has arrived has ended without an exception. -/
def ServerRequests.Returned (c : ServerRequests α ι) : Prop := ∀ i p, c.thread i = some p → p = .done (.ok ())

namespace Requests

/-! ## The protocol at the start -/

/-- The identifiers that containers of the miniverse may have. -/
def OwnId (id : Uuid4) (w : World α) (container_id : String) : Prop :=
  container_id ≠ "" ∧ ∀ c ∈ w.containers, c.id = container_id → c.name = container_name_of id

theorem daemon_of_tidy (h : Tidy env id w) : Daemon (container_name_of id) (OwnId id w) w.containers where
  named := h.named
  once c hc c' hc' hname hname' :=
    congrArg Container.id (List.inj_on_of_nodup_map h.names hc hc' (hname.trans hname'.symm))
  owned c hc := by
    refine ⟨fun hown => hown.2 c hc rfl, fun hname => ⟨h.nonempty c hc, fun c' hc' hid => ?_⟩⟩
    rw [List.inj_on_of_nodup_map h.ids hc' hc hid]
    exact hname

theorem own_new (h : Tidy env id w) (n : Nat) : OwnId id w (env.container_id n) :=
  ⟨(h.new n).1, fun c hc hid => absurd hid ((h.new n).2 c hc)⟩

/-! ## Every turn -/

/-- What holds between turns: the requests follow the protocol, and keep its invariant until one raises. -/
structure Sound (env : Env α) (id : Uuid4) (own : String → Prop) (request : ι → ServerRequest) (status : ι → Status)
    (c : ServerRequests α ι) : Prop where
  tracks : Arrivals.Tracks (Serves id own) (Async.Yields .raised fun t _ => t = .ended)
    (fun i => ((request i).program env id).run) status c
  waits : ∀ i, c.thread i = none → status i = .waiting (request i)
  arrived : ∀ i r, status i = .waiting r → c.thread i = none
  kind : ∀ i, if request i = .stop then ¬ (status i).Starts else ¬ (status i).Stops
  served : ∃ s, c.shared.server id = some s ∧ ((∃ i, status i = .raised) ∨ Served (container_name_of id) own status s)

variable {own : String → Prop} {request : ι → ServerRequest} {status : ι → Status} {c : ServerRequests α ι}

/-- What is under way in the protocol is at work. -/
theorem Sound.active (h : Sound env id own request status c) {j : ι} (hj : (status j).Starts ∨ (status j).Stops) :
    c.Active j := by
  cases hthread : c.thread j with
  | none =>
      rw [h.waits j hthread] at hj
      rcases hj with hj | hj <;> exact hj.elim
  | some p =>
      refine ⟨p, hthread, ?_⟩
      cases p with
      | step f next => rfl
      | done r =>
          have hfits := h.tracks j
          rw [Arrivals.program_of_thread hthread] at hfits
          cases r with
          | ok a =>
              rw [show status j = .ended from hfits] at hj
              rcases hj with hj | hj <;> exact hj.elim
          | error e =>
              rw [show status j = .raised from hfits] at hj
              rcases hj with hj | hj <;> exact hj.elim

theorem Sound.apart (h : Sound env id own request status c) {i : ι} (hapart : ArrivesApart request c i) :
    Apart status i := by
  intro r hr
  have hthread := h.arrived i r hr
  obtain rfl : request i = r := Status.waiting.inj ((h.waits i hthread).symm.trans hr)
  split
  · rename_i hstop
    intro j hj
    have hkind := h.kind j
    rw [if_pos ((hapart hthread j (h.active (Or.inl hj))).mpr hstop)] at hkind
    exact hkind hj
  · rename_i hstop
    intro j hj
    have hkind := h.kind j
    rw [if_neg fun hj' => hstop ((hapart hthread j (h.active (Or.inr hj))).mp hj')] at hkind
    exact hkind hj

theorem Sound.turn [DecidableEq ι] (h : Sound env id own request status c) (hempty : ¬ own "") {i : ι}
    (hapart : ArrivesApart request c i) :
    ∃ status', Sound env id own request status' (c.turn (fun i => ((request i).program env id).run) i) := by
  have hstay : ∀ (t : Status) (a : Except PyError Unit) (w : World α),
      Async.Yields .raised (fun t _ => t = Status.ended) t a → Serves id own t w t w := by
    intro t a w hfits s hs
    refine ⟨s, hs, .stay t s fun r hr => ?_⟩
    subst hr
    cases a <;> cases hfits
  obtain ⟨t', hmove, htracks⟩ := h.tracks.turn hstay i
  obtain ⟨s, hs, hserved⟩ := h.served
  obtain ⟨s', hs', hmove⟩ := hmove s hs
  refine ⟨Function.update status i t', htracks, fun j hj => ?_, fun j r hj => ?_, fun j => ?_, s', hs', ?_⟩
  · have hji : j ≠ i := by
      rintro rfl
      rw [Arrivals.turn_thread_self] at hj
      cases hj
    rw [Arrivals.turn_thread_ne hji] at hj
    rw [Function.update_of_ne hji]
    exact h.waits j hj
  · have hji : j ≠ i := by
      rintro rfl
      rw [Function.update_self] at hj
      exact hmove.arrived r hj
    rw [Function.update_of_ne hji] at hj
    rw [Arrivals.turn_thread_ne hji]
    exact h.arrived j r hj
  · by_cases hji : j = i
    · subst hji
      have hkind := h.kind j
      rw [Function.update_self]
      split
      · rename_i hstop
        rw [if_pos hstop] at hkind
        refine hmove.not_starts hkind fun r hr => ?_
        rw [← hstop]
        exact (Status.waiting.inj ((h.waits j (h.arrived j r hr)).symm.trans hr)).symm
      · rename_i hstop
        rw [if_neg hstop] at hkind
        refine hmove.not_stops hkind fun hr => hstop ?_
        exact Status.waiting.inj ((h.waits j (h.arrived j _ hr)).symm.trans hr)
    · rw [Function.update_of_ne hji]
      exact h.kind j
  · rcases hserved with ⟨j, hj⟩ | hserved
    · left
      by_cases hji : j = i
      · subst hji
        refine ⟨j, ?_⟩
        rw [hj] at hmove
        rw [Function.update_self]
        cases hmove with
        | stay => rfl
        | raise => rfl
      · exact ⟨j, by rwa [Function.update_of_ne hji]⟩
    · by_cases hraised : t' = .raised
      · exact Or.inl ⟨i, by rw [Function.update_self, hraised]⟩
      · exact Or.inr (hserved.step hempty hmove (h.apart hapart) hraised)

end Requests

/-! ## Runs -/

open Requests in
/-- Once requests that arrived apart have all returned, the row and Docker agree again. -/
theorem servers_agree [DecidableEq ι] (htidy : Tidy env id w) (hagrees : w.AgreesWithDocker id) {request : ι → ServerRequest}
    {schedule : List ι}
    (hapart : Meets (ServerRequests.take env id request) (ArrivesApart request) schedule (Arrivals.start w))
    (hreturned : ServerRequests.Returned (runs (ServerRequests.take env id request) schedule (Arrivals.start w))) :
    (runs (ServerRequests.take env id request) schedule (Arrivals.start w)).shared.AgreesWithDocker id := by
  obtain ⟨r, hr, hstarted, hknown⟩ := hagrees
  have hserved : Served (container_name_of id) (OwnId id w) (fun i => .waiting (request i))
      ⟨r.started, r.container_id, w.containers⟩ :=
    { daemon := daemon_of_tidy htidy
      owns := fun _ => trivial
      mode := Or.inr (.of_agrees ⟨hstarted, hknown⟩ (fun _ h => h) fun _ h => h) }
  have hstart : Sound env id (OwnId id w) request (fun i => .waiting (request i)) (Arrivals.start w) :=
    { tracks := fun i => does_request htidy.docker (own_new htidy) (request i)
      waits := fun _ _ => rfl
      arrived := fun _ _ _ => rfl
      kind := fun i => by split <;> exact fun h => h
      served := ⟨_, server_of_row hr, Or.inr hserved⟩ }
  obtain ⟨status, hend⟩ := runs_invariant (I := fun c => ∃ status, Sound env id (OwnId id w) request status c)
    (fun c i hapart ⟨status, h⟩ => h.turn (fun hown => hown.1 rfl) hapart) hapart ⟨_, hstart⟩
  generalize runs (ServerRequests.take env id request) schedule (Arrivals.start w) = c at hreturned hend
  have hended : ∀ i, status i = .ended ∨ status i = .waiting (request i) := by
    intro i
    cases hthread : c.thread i with
    | none => exact Or.inr (hend.waits i hthread)
    | some p =>
        have hfits := hend.tracks i
        rw [Arrivals.program_of_thread hthread, hreturned i p hthread] at hfits
        exact Or.inl hfits
  obtain ⟨s, hs, hserved⟩ := hend.served
  have hserved : Served (container_name_of id) (OwnId id w) status s := by
    refine hserved.resolve_left fun ⟨i, hi⟩ => ?_
    rcases hended i with h | h <;> rw [hi] at h <;> cases h
  have hagrees := hserved.agrees fun i => by
    rcases hended i with h | h <;> rw [h] <;> exact ⟨fun h => h, fun h => h⟩
  obtain ⟨r', hr', rfl⟩ := Option.map_eq_some_iff.mp hs
  exact ⟨r', hr', hagrees⟩

/-- One step of a request by which an administrator may stop being one. -/
def AdminRequests.take [DecidableEq ι] (env : Env α) (request : ι → AdminRequest) (i : ι) :
    Eff (Arrivals (World α) ι (Except PyError Unit)) Empty Unit :=
  Arrivals.take (AdminRequests.programs env request) i

/-- One step of a request on mods. -/
def ModRequests.take [DecidableEq ι] (env : Env α) (request : ι → ModRequest) (i : ι) :
    Eff (Arrivals (World α) ι (Except PyError Unit)) Empty Unit :=
  Arrivals.take (ModRequests.programs env request) i

/-- Containers get the identifier `7`. -/
def sampleDocker : Env String := { sampleEnv with container_id := fun _ => "7" }

/-- A stopped miniverse with its directory and its controller. -/
def sampleStopped : World String :=
  { sampleWorld with
    db := { sampleWorld.db with miniverses := [(sampleCreate "1.21.8").toMiniverse sampleId "sample" "secret"] }
    disk := ((Disk.mkdirs (miniverse_data_path samplePlatform sampleId) : Fs String Unit) sampleWorld.disk).2
    controllers := [(sampleId, .mcRouter [])] }

theorem tidy_sampleStopped : Tidy sampleDocker sampleId sampleStopped where
  docker := nofun
  names := List.nodup_nil
  ids := List.nodup_nil
  nonempty _ hc := absurd hc List.not_mem_nil
  named _ hc := absurd hc List.not_mem_nil
  new _ := ⟨(by decide : "7" ≠ ""), fun _ hc => absurd hc List.not_mem_nil⟩

theorem agrees_sampleStopped : sampleStopped.AgreesWithDocker sampleId := by
  refine ⟨(sampleCreate "1.21.8").toMiniverse sampleId "sample" "secret", by decide, ?_, fun _ hc => absurd hc List.not_mem_nil⟩
  exact iff_of_false (by decide) fun ⟨_, hc, _⟩ => absurd hc List.not_mem_nil

/-- Two starts. The second finds the container of the first before it runs. -/
def sampleStarts : List Bool := List.replicate 8 false ++ List.replicate 8 true ++ List.replicate 2 false

set_option maxRecDepth 10000 in
theorem servers_agree_sample : World.AgreesWithDocker
    (runs (ServerRequests.take sampleDocker sampleId fun _ => .start) sampleStarts (Arrivals.start sampleStopped)).shared
    sampleId := by
  refine servers_agree tidy_sampleStopped agrees_sampleStopped (meets_of_forall (fun _ _ _ _ _ => Iff.rfl) _ _) ?_
  have hfirst : (runs (ServerRequests.take sampleDocker sampleId fun _ => .start) sampleStarts
      (Arrivals.start sampleStopped)).thread false = some (.done (.ok ())) := rfl
  have hsecond : (runs (ServerRequests.take sampleDocker sampleId fun _ => .start) sampleStarts
      (Arrivals.start sampleStopped)).thread true = some (.done (.ok ())) := rfl
  intro i p hp
  cases i with
  | false => exact Option.some.inj (hp.symm.trans hfirst)
  | true => exact Option.some.inj (hp.symm.trans hsecond)

/-- A start and a stop. The stop looks for the container when the start has set the row and not yet created it, and sets the
row when the container runs. -/
def sampleOverlap : List Bool :=
  List.replicate 3 false ++ List.replicate 2 true ++ List.replicate 7 false ++ List.replicate 6 true

set_option maxRecDepth 10000 in
/-- A stop overlaps a start: the server runs, and the row says that it does not. -/
theorem stop_within_start :
    ¬ ∀ (env : Env String) (w : World String) (request : Bool → ServerRequest) (schedule : List Bool),
      Tidy env sampleId w → w.AgreesWithDocker sampleId →
      ServerRequests.Returned (runs (ServerRequests.take env sampleId request) schedule (Arrivals.start w)) →
      (runs (ServerRequests.take env sampleId request) schedule (Arrivals.start w)).shared.AgreesWithDocker sampleId := by
  intro h
  have hagrees := h sampleDocker sampleStopped (fun i => if i then .stop else .start) sampleOverlap
    tidy_sampleStopped agrees_sampleStopped
  generalize hc : runs (ServerRequests.take sampleDocker sampleId fun i => if i then .stop else .start) sampleOverlap
    (Arrivals.start sampleStopped) = c at hagrees
  have hfirst : c.thread false = some (.done (.ok ())) := hc ▸ rfl
  have hsecond : c.thread true = some (.done (.ok ())) := hc ▸ rfl
  have hrow : (c.shared.db.findMiniverse sampleId.str).map (·.started) = some false := by
    rw [← hc]
    decide
  have hrunning : ServerRunning c.shared sampleId := by
    unfold ServerRunning
    rw [← hc]
    decide
  have hreturned : ServerRequests.Returned c := by
    intro i p hp
    cases i with
    | false => exact Option.some.inj (hp.symm.trans hfirst)
    | true => exact Option.some.inj (hp.symm.trans hsecond)
  obtain ⟨r, hr, hstarted, _⟩ := hagrees hreturned
  rw [hr, Option.map_some, Option.some.injEq] at hrow
  rw [hstarted.mpr hrunning] at hrow
  cases hrow

end Backend
