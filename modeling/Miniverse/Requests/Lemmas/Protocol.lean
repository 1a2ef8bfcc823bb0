import Mathlib.Data.List.Infix
import Miniverse.Requests.Service

/-!
# The protocol of starting and stopping

What a request still has to do with the row and the containers of one miniverse, and what each of its steps does there.
Starts and restarts that overlap leave a running server that the row knows, and so do stops that overlap leave none.
-/

namespace Backend

namespace Requests

/-- What the row of a miniverse says of its server, and the containers of the daemon. -/
structure Server where
  started : Bool
  container_id : Option String
  containers : List Container

/-- What a request does next. A stop keeps what its session knows of the row, and `again` says that a start follows. -/
inductive Status where
  | waiting (request : ServerRequest)
  | stop (again started : Bool) (container_id : Option String)
  | stopped (again started : Bool) (container_id : Option String)
  | unread
  | start (started : Bool)
  | starting
  | looking (container_id : Option String)
  | creating (container_id : Option String)
  | recording (container_id : Option String) (found : String)
  | recorded (found : String)
  | ended
  | raised

namespace Status

/-- A stop is under way. -/
def Stops : Status → Prop
  | stop again _ _ | stopped again _ _ => again = false
  | _ => False

/-- A start or a restart is under way. -/
def Starts : Status → Prop
  | stop again _ _ | stopped again _ _ => again = true
  | unread | start _ | starting | looking _ | creating _ | recording _ _ | recorded _ => True
  | _ => False

/-- The row will say that the server is started. -/
def WillSet : Status → Prop
  | stop again _ _ | stopped again _ _ => again = true
  | unread => True
  | start started => started = false
  | _ => False

/-- The row, now with this identifier, will get that of the container with the name. -/
def WillRecord (container_id : Option String) : Status → Prop
  | stop again _ _ | stopped again _ _ => again = true
  | unread | start _ | starting => True
  | looking known | creating known | recording known _ => known = container_id
  | _ => False

end Status

variable (name : String) (own : String → Prop)

/-- The steps of a request. The daemon gives new containers of the miniverse identifiers of its own. -/
inductive Moves : Status → Server → Status → Server → Prop
  | stay (t s) (harrived : ∀ r, t ≠ .waiting r) : Moves t s t s
  | raise (t s) : Moves t s .raised s
  | arrive_start (s) : Moves (.waiting .start) s (.start s.started) s
  | arrive_stop (s) : Moves (.waiting .stop) s (.stop false s.started s.container_id) s
  | arrive_restart (s) : Moves (.waiting .restart) s (.stop true s.started s.container_id) s
  | stop (again started container_id s) : Moves (.stop again started container_id) s (.stopped again started container_id)
      { s with containers := s.containers.filter fun c => decide (truthy container_id ≠ some c.id ∨ c.running = false) }
  | record_stop (again started container_id s) : Moves (.stopped again started container_id) s (if again then .unread else .ended)
      { s with
        started := if started then false else s.started
        container_id := if container_id = none then s.container_id else none }
  | read (s) : Moves .unread s (.start s.started) s
  | record_start (started s) : Moves (.start started) s .starting { s with started := if started then s.started else true }
  | read_started (s) : Moves .starting s (.looking s.container_id) s
  | found {container_id s c} (hc : c ∈ s.containers) (hname : name.toList <:+: c.name.toList) :
      Moves (.looking container_id) s (.recording container_id c.id) s
  | missing (container_id s) : Moves (.looking container_id) s (.creating container_id) s
  | create {container_id s c} (hname : c.name = name) (hown : own c.id) (hfree : ∀ c' ∈ s.containers, c'.name ≠ name) :
      Moves (.creating container_id) s (.recording container_id c.id) { s with containers := c :: s.containers }
  | record (container_id found s) : Moves (.recording container_id found) s (.recorded found)
      { s with container_id := if container_id = some found then s.container_id else some found }
  | run {found s} (hc : ∃ c ∈ s.containers, c.id = found) : Moves (.recorded found) s .ended
      { s with containers := s.containers.map fun c => if c.id = found then { c with running := true } else c }

variable {name own}

namespace Server

/-- The server is running: a container with the name is. -/
def Runs (name : String) (s : Server) : Prop := ∃ c ∈ s.containers, c.name = name ∧ c.running = true

/-- A running server is the one that the row knows. -/
def Known (name : String) (s : Server) : Prop :=
  ∃ c ∈ s.containers, c.name = name ∧ c.running = true ∧ s.container_id = some c.id

end Server

/-- Names are used once, and the miniverse has identifiers of its own. -/
structure Daemon (name : String) (own : String → Prop) (containers : List Container) : Prop where
  named : ∀ c ∈ containers, name.toList <:+: c.name.toList → c.name = name
  once : ∀ c ∈ containers, ∀ c' ∈ containers, c.name = name → c'.name = name → c.id = c'.id
  owned : ∀ c ∈ containers, own c.id ↔ c.name = name

theorem Daemon.mono {containers containers' : List Container} (h : Daemon name own containers)
    (hsub : ∀ c ∈ containers', ∃ c₀ ∈ containers, c₀.id = c.id ∧ c₀.name = c.name) : Daemon name own containers' where
  named c hc hname := by
    obtain ⟨c₀, hc₀, _, hsame⟩ := hsub c hc
    exact hsame ▸ h.named c₀ hc₀ (hsame ▸ hname)
  once c hc c' hc' hname hname' := by
    obtain ⟨c₀, hc₀, hid, hsame⟩ := hsub c hc
    obtain ⟨c₁, hc₁, hid', hsame'⟩ := hsub c' hc'
    exact hid ▸ hid' ▸ h.once c₀ hc₀ c₁ hc₁ (hsame.trans hname) (hsame'.trans hname')
  owned c hc := by
    obtain ⟨c₀, hc₀, hid, hsame⟩ := hsub c hc
    exact hid ▸ hsame ▸ h.owned c₀ hc₀

theorem Daemon.cons {containers : List Container} {c : Container} (h : Daemon name own containers) (hname : c.name = name)
    (hown : own c.id) (hfree : ∀ c' ∈ containers, c'.name ≠ name) : Daemon name own (c :: containers) where
  named c' hc' hin := by
    rcases List.mem_cons.mp hc' with rfl | hc'
    · exact hname
    · exact h.named c' hc' hin
  once c₁ hc₁ c₂ hc₂ hname₁ hname₂ := by
    rcases List.mem_cons.mp hc₁ with rfl | hc₁
    · rcases List.mem_cons.mp hc₂ with rfl | hc₂
      · rfl
      · exact absurd hname₂ (hfree c₂ hc₂)
    · exact absurd hname₁ (hfree c₁ hc₁)
  owned c' hc' := by
    rcases List.mem_cons.mp hc' with rfl | hc'
    · exact iff_of_true hown hname
    · exact h.owned c' hc'

/-! ## What a step does -/

/-- A request looks for a container, or starts it, by an identifier of the miniverse. -/
def Status.Own (own : String → Prop) : Status → Prop
  | recording _ found | recorded found => own found
  | _ => True

variable {t t' : Status} {s s' : Server}

theorem Moves.daemon (h : Moves name own t s t' s') (hdaemon : Daemon name own s.containers) :
    Daemon name own s'.containers := by
  cases h with
  | stop => exact hdaemon.mono fun c hc => ⟨c, (List.mem_filter.mp hc).1, rfl, rfl⟩
  | create hname hown hfree => exact hdaemon.cons hname hown hfree
  | run =>
      refine hdaemon.mono fun c hc => ?_
      obtain ⟨c₀, hc₀, rfl⟩ := List.mem_map.mp hc
      refine ⟨c₀, hc₀, ?_⟩
      split <;> exact ⟨rfl, rfl⟩
  | _ => exact hdaemon

theorem Moves.owns (h : Moves name own t s t' s') (hdaemon : Daemon name own s.containers) (hown : t.Own own) :
    t'.Own own := by
  cases h with
  | stay => exact hown
  | found hc hname => exact (hdaemon.owned _ hc).mpr (hdaemon.named _ hc hname)
  | create _ hnew => exact hnew
  | record => exact hown
  | record_stop again => cases again <;> trivial
  | _ => trivial

/-- Without stops, what is running stays so until it is restarted. -/
theorem Moves.known (h : Moves name own t s t' s') (hstop : ¬ t.Stops) (hsame : s'.container_id = s.container_id)
    (hknown : s.Known name) : s'.Known name ∨ t'.WillRecord s'.container_id := by
  obtain ⟨c, hc, hname, hrunning, hid⟩ := hknown
  cases h with
  | stop again =>
      cases again with
      | false => exact absurd rfl hstop
      | true => exact Or.inr rfl
  | create => exact Or.inl ⟨c, List.mem_cons_of_mem _ hc, hname, hrunning, hid⟩
  | run =>
      refine Or.inl ⟨_, List.mem_map_of_mem hc, ?_⟩
      split
      · exact ⟨hname, rfl, hid⟩
      · exact ⟨hname, hrunning, hid⟩
  | _ => exact Or.inl ⟨c, hc, hname, hrunning, hsame.trans hid⟩

/-- After its first step a request has arrived. -/
theorem Moves.arrived (h : Moves name own t s t' s') (r : ServerRequest) : t' ≠ .waiting r := by
  intro heq
  cases h with
  | stay _ _ harrived => exact harrived r heq
  | record_stop again => cases again <;> cases heq
  | _ => cases heq

theorem Moves.not_stops (h : Moves name own t s t' s') (hstop : ¬ t.Stops) (hwait : t ≠ .waiting .stop) : ¬ t'.Stops := by
  cases h with
  | stay => exact hstop
  | arrive_stop => exact absurd rfl hwait
  | arrive_restart => exact fun h => nomatch h
  | stop => exact hstop
  | record_stop again => cases again <;> exact id
  | _ => exact id

theorem Moves.not_starts (h : Moves name own t s t' s') (hstart : ¬ t.Starts) (hwait : ∀ r, t = .waiting r → r = .stop) :
    ¬ t'.Starts := by
  cases h with
  | stay => exact hstart
  | raise => exact id
  | arrive_start => exact nomatch hwait _ rfl
  | arrive_stop => exact fun h => nomatch h
  | arrive_restart => exact nomatch hwait _ rfl
  | stop => exact hstart
  | record_stop again =>
      cases again with
      | false => exact id
      | true => exact absurd rfl hstart
  | _ => exact absurd trivial hstart

/-- Without stops, a step sets the row, or the request still will, or the step has no part in it. -/
theorem Moves.sets (h : Moves name own t s t' s') (hstop : ¬ t.Stops) (hraised : t' ≠ .raised) :
    s'.started = true ∨ t'.WillSet ∨ s'.started = s.started ∧ ¬ t.WillSet := by
  cases h with
  | stay =>
      by_cases hset : t.WillSet
      · exact Or.inr (Or.inl hset)
      · exact Or.inr (Or.inr ⟨rfl, hset⟩)
  | raise => exact absurd rfl hraised
  | arrive_restart => exact Or.inr (Or.inl rfl)
  | stop again =>
      cases again with
      | false => exact absurd rfl hstop
      | true => exact Or.inr (Or.inl rfl)
  | record_stop again =>
      cases again with
      | false => exact absurd rfl hstop
      | true => exact Or.inr (Or.inl trivial)
  | read =>
      cases hstarted : s.started with
      | false => exact Or.inr (Or.inl rfl)
      | true => exact Or.inl rfl
  | record_start started =>
      cases started with
      | false => exact Or.inl rfl
      | true => exact Or.inr (Or.inr ⟨rfl, fun h => nomatch h⟩)
  | _ => exact Or.inr (Or.inr ⟨rfl, id⟩)

/-- Without stops, the request will record a container after the step, or start the one that it has recorded, or the server
runs, or the step has no part in it. -/
theorem Moves.records (h : Moves name own t s t' s') (hdaemon : Daemon name own s.containers) (hown : t.Own own)
    (hstop : ¬ t.Stops) (hraised : t' ≠ .raised) :
    t'.WillRecord s'.container_id ∨ (∃ found, t' = .recorded found ∧ s'.container_id = some found) ∨ s'.Known name ∨
      s'.container_id = s.container_id ∧ ¬ t.WillRecord s.container_id ∧
        ∀ found, t = .recorded found → s.container_id ≠ some found := by
  have hpending : ∀ {known : Option String} (t₀ t₁ : Status), (t₁.WillRecord s.container_id ↔ known = s.container_id) →
      (t₀.WillRecord s.container_id ↔ known = s.container_id) → (∀ found, t₀ ≠ .recorded found) →
      t₁.WillRecord s.container_id ∨ (∃ found, t₁ = .recorded found ∧ s.container_id = some found) ∨ s.Known name ∨
        s.container_id = s.container_id ∧ ¬ t₀.WillRecord s.container_id ∧
          ∀ found, t₀ = .recorded found → s.container_id ≠ some found := by
    intro known t₀ t₁ h₁ h₀ hno
    by_cases hsame : known = s.container_id
    · exact Or.inl (h₁.mpr hsame)
    · exact Or.inr (Or.inr (Or.inr ⟨rfl, fun h => hsame (h₀.mp h), fun found h => absurd h (hno found)⟩))
  cases h with
  | stay =>
      by_cases hrecord : t.WillRecord s.container_id
      · exact Or.inl hrecord
      · by_cases hrecorded : ∃ found, t = .recorded found ∧ s.container_id = some found
        · exact Or.inr (Or.inl hrecorded)
        · exact Or.inr (Or.inr (Or.inr ⟨rfl, hrecord, fun found h hid => hrecorded ⟨found, h, hid⟩⟩))
  | raise => exact absurd rfl hraised
  | arrive_start => exact Or.inl trivial
  | arrive_stop => exact Or.inr (Or.inr (Or.inr ⟨rfl, id, fun _ h => nomatch h⟩))
  | arrive_restart => exact Or.inl rfl
  | stop again =>
      cases again with
      | false => exact absurd rfl hstop
      | true => exact Or.inl rfl
  | record_stop again =>
      cases again with
      | false => exact absurd rfl hstop
      | true => exact Or.inl trivial
  | read => exact Or.inl trivial
  | record_start => exact Or.inl trivial
  | read_started => exact Or.inl rfl
  | found => exact hpending _ _ Iff.rfl Iff.rfl fun _ h => nomatch h
  | missing => exact hpending _ _ Iff.rfl Iff.rfl fun _ h => nomatch h
  | @create known _ c =>
      by_cases hsame : known = s.container_id
      · exact Or.inl hsame
      · exact Or.inr (Or.inr (Or.inr ⟨rfl, hsame, fun _ h => nomatch h⟩))
  | record known found =>
      by_cases hknown : known = some found
      · by_cases hsame : known = s.container_id
        · exact Or.inr (Or.inl ⟨found, rfl, (if_pos hknown).trans (hsame.symm.trans hknown)⟩)
        · exact Or.inr (Or.inr (Or.inr ⟨if_pos hknown, hsame, fun _ h => nomatch h⟩))
      · exact Or.inr (Or.inl ⟨found, rfl, if_neg hknown⟩)
  | @run found _ hc =>
      by_cases hid : s.container_id = some found
      · obtain ⟨c, hc, rfl⟩ := hc
        have hname : c.name = name := (hdaemon.owned c hc).mp hown
        exact Or.inr (Or.inr (Or.inl ⟨{ c with running := true },
          List.mem_map.mpr ⟨c, hc, if_pos rfl⟩, hname, rfl, hid⟩))
      · refine Or.inr (Or.inr (Or.inr ⟨rfl, id, fun found' h => ?_⟩))
        cases h
        exact hid

end Requests

end Backend
