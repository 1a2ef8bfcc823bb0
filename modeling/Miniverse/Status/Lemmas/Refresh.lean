import Miniverse.Status.Lemmas.Publishing
import Miniverse.Status.Players

/-!
# Refreshing the players

The stages of a call of `get_msmp_player_list` with `refresh_cache`, and what its steps do to the two keys that it writes.
-/

namespace Backend

open Lib

variable {V : Type} {msmp : MSMPJson V} {source : Source V} {miniverse_id : String}

def players_key (miniverse_id : String) : String := status_key miniverse_id "minecraft:players"

def seen_key (miniverse_id : String) : String := status_key miniverse_id "miniverse:seen_players"

theorem seen_key_ne_players_key : seen_key miniverse_id ≠ players_key miniverse_id := by
  intro h
  have hnames : ".miniverse:seen_players" = ".minecraft:players" := by
    unfold seen_key players_key status_key at h
    rw [String.append_assoc, String.append_assoc] at h
    exact String.append_right_inj _ |>.mp h
  revert hnames
  decide

namespace BaseMiniverseService

/-! ## What is left of a call -/

/-- The call writes the dictionary that it read with the players of its list. -/
def storeSeen (msmp : MSMPJson V) (miniverse_id : String) (raw_player_list : V) (seen_player_dict : Option V) :
    Async (StatusWorld V) (Except PyError V) := do
  redis_put (seen_key miniverse_id) (some (msmp.dumps (msmp.add_seen seen_player_dict raw_player_list)))
  return .ok raw_player_list

/-- The call compares with what is stored, and writes next. -/
def checkSeen (msmp : MSMPJson V) (miniverse_id : String) (raw_player_list : V) (seen_player_dict : Option V) :
    Async (StatusWorld V) (Except PyError V) :=
  Async.step id fun _ => storeSeen msmp miniverse_id raw_player_list seen_player_dict

/-- The call reads the dictionary next. -/
def readSeen (msmp : MSMPJson V) (miniverse_id : String) (raw_player_list : V) :
    Async (StatusWorld V) (Except PyError V) :=
  Async.step id fun w =>
    checkSeen msmp miniverse_id raw_player_list ((w.redis (seen_key miniverse_id)).map msmp.loads)

/-- What follows when the list is stored. -/
def afterSet (msmp : MSMPJson V) (miniverse_id : String) (raw_player_list : Option V) :
    Except PyError Unit → Async (StatusWorld V) (Except PyError V)
  | .error e => .done (.error e)
  | .ok _ => raw_player_list.elim (.done (.ok msmp.empty)) (readSeen msmp miniverse_id)

/-- The call has its list, and stores it next. -/
def storeList (msmp : MSMPJson V) (miniverse_id : String) (raw_player_list : Option V) :
    Async (StatusWorld V) (Except PyError V) := do
  let set ← ServerStatusStore.set msmp.toJson miniverse_id "minecraft:players" raw_player_list true
  afterSet msmp miniverse_id raw_player_list set

/-- The call has found another list, and writes its own next. -/
def writeList (msmp : MSMPJson V) (miniverse_id : String) (raw_player_list : Option V) :
    Async (StatusWorld V) (Except PyError V) := do
  let set ← ServerStatusStore.writing msmp.toJson miniverse_id "minecraft:players" raw_player_list
  afterSet msmp miniverse_id raw_player_list set

/-- What Redis returns is never equal to the text that is written. -/
theorem differs_some (old_json_value : Option Bytes) (json_value : String) :
    differs old_json_value (some json_value) = true := by
  cases old_json_value <;> rfl

theorem storeList_eq (raw_player_list : V) : storeList msmp miniverse_id (some raw_player_list) =
    Async.step id fun _ => writeList msmp miniverse_id (some raw_player_list) := by
  rw [storeList, ServerStatusStore.set_eq, Async.step_bind]
  refine congrArg (Async.step id) (funext fun w => ?_)
  rw [Option.map_some, differs_some, if_pos rfl]
  rfl

theorem set_seen_eq (value : V) :
    ServerStatusStore.set msmp.toJson miniverse_id "miniverse:seen_players" (some value) false =
      Async.step id fun _ => do
        redis_put (seen_key miniverse_id) (some (msmp.dumps value))
        return .ok () := by
  refine congrArg (Async.step id) (funext fun w => ?_)
  show (if differs _ (some (msmp.dumps value)) = true then _ else _) = _
  rw [differs_some, if_pos rfl]
  rfl

theorem get_msmp_player_list_eq : get_msmp_player_list msmp source miniverse_id true =
    Async.step (fun w => { w with tick := w.tick + 1 }) fun w =>
      match source w.tick "minecraft:players" with
      | .error e => .done (.error e)
      | .ok raw_player_list => storeList msmp miniverse_id raw_player_list := by
  unfold get_msmp_player_list get_data_cached
  refine congrArg (Async.step _) (funext fun w => ?_)
  show ((Async.done (source w.tick "minecraft:players") >>= _) >>= _) = _
  cases source w.tick "minecraft:players" with
  | error e => rfl
  | ok raw_player_list =>
      rw [Async.done_bind]
      show (ServerStatusStore.set msmp.toJson miniverse_id "minecraft:players" raw_player_list true >>= _) >>= _ = _
      rw [Async.bind_assoc]
      refine congrArg (_ >>= ·) (funext fun set => ?_)
      cases set with
      | error e => rfl
      | ok _ =>
          cases raw_player_list with
          | none => rfl
          | some raw_player_list =>
              refine congrArg (Async.step id) (funext fun w => ?_)
              show ServerStatusStore.set _ _ _ (some _) false >>= _ = _
              rw [set_seen_eq]
              simp only [Option.map_map]
              rfl

/-! ## Stages -/

/-- Where a call is. -/
inductive Refreshing (msmp : MSMPJson V) (source : Source V) (miniverse_id : String) :
    Async (StatusWorld V) (Except PyError V) → Prop
  | start : Refreshing msmp source miniverse_id (get_msmp_player_list msmp source miniverse_id true)
  | storing (raw_player_list : Option V) {p : Async (StatusWorld V) (Except PyError Unit)} :
      ServerStatusStore.Stage msmp.toJson miniverse_id "minecraft:players" raw_player_list p →
      Refreshing msmp source miniverse_id (p >>= afterSet msmp miniverse_id raw_player_list)
  | checking (raw_player_list : V) (seen_player_dict : Option V) :
      Refreshing msmp source miniverse_id (checkSeen msmp miniverse_id raw_player_list seen_player_dict)
  | writing (raw_player_list : V) (seen_player_dict : Option V) :
      Refreshing msmp source miniverse_id (storeSeen msmp miniverse_id raw_player_list seen_player_dict)
  | failed {e : PyError} (tick : Nat) : source tick "minecraft:players" = .error e →
      Refreshing msmp source miniverse_id (.done (.error e))
  | done (v : V) : Refreshing msmp source miniverse_id (.done (.ok v))

/-- The list is to be written. -/
inductive Unwritten (msmp : MSMPJson V) (source : Source V) (miniverse_id : String) (raw_player_list : V) :
    Async (StatusWorld V) (Except PyError V) → Prop
  | start : (∀ tick, source tick "minecraft:players" = .ok (some raw_player_list)) →
      Unwritten msmp source miniverse_id raw_player_list (get_msmp_player_list msmp source miniverse_id true)
  | storing : Unwritten msmp source miniverse_id raw_player_list (storeList msmp miniverse_id (some raw_player_list))
  | writing : Unwritten msmp source miniverse_id raw_player_list (writeList msmp miniverse_id (some raw_player_list))

variable {p : Async (StatusWorld V) (Except PyError V)}

theorem Unwritten.isDone {raw_player_list : V} (h : Unwritten msmp source miniverse_id raw_player_list p) :
    p.isDone = false := by
  cases h with
  | start _ =>
      rw [get_msmp_player_list_eq]
      rfl
  | storing => rfl
  | writing => rfl

theorem storing_isDone {raw_player_list : Option V} {q : Async (StatusWorld V) (Except PyError Unit)}
    (h : ServerStatusStore.Stage msmp.toJson miniverse_id "minecraft:players" raw_player_list q) :
    q.isDone = false ∨ q = .done (.ok ()) := by
  cases h with
  | start => exact Or.inl rfl
  | writing => exact Or.inl rfl
  | publishing => exact Or.inl (ServerStatusStore.isDone_publishing (by decide) _)
  | done => exact Or.inr rfl

/-- A call that ends when its list is stored had none. -/
theorem storing_done {raw_player_list : Option V} {q : Async (StatusWorld V) (Except PyError Unit)} {v : V}
    (h : ServerStatusStore.Stage msmp.toJson miniverse_id "minecraft:players" raw_player_list q)
    (hdone : (q >>= afterSet msmp miniverse_id raw_player_list) = .done (.ok v)) : v = msmp.empty := by
  rcases storing_isDone h with hq | rfl
  · exact absurd hdone (Async.bind_ne_done hq)
  · cases raw_player_list with
    | none =>
        cases hdone
        rfl
    | some raw_player_list => cases hdone

theorem stage_frame {raw_player_list : Option V} {q : Async (StatusWorld V) (Except PyError Unit)}
    (h : ServerStatusStore.Stage msmp.toJson miniverse_id "minecraft:players" raw_player_list q) (w : StatusWorld V) :
    (q.once w).1.redis (seen_key miniverse_id) = w.redis (seen_key miniverse_id) := by
  rcases ServerStatusStore.stage_once h w with hsame | hwrite | rfl
  · rw [hsame]
  · rw [hwrite]
    exact Function.update_of_ne seen_key_ne_players_key _ _
  · rw [ServerStatusStore.once_publishing (by decide)]

/-- A call raises what its source has raised. -/
theorem Refreshing.error {e : PyError} (h : Refreshing msmp source miniverse_id p) (hp : p = .done (.error e)) :
    ∃ tick, source tick "minecraft:players" = .error e := by
  cases h with
  | start =>
      rw [get_msmp_player_list_eq] at hp
      cases hp
  | storing raw_player_list hq =>
      rcases storing_isDone hq with hdone | rfl
      · exact absurd hp (Async.bind_ne_done hdone)
      · cases raw_player_list <;> cases hp
  | checking _ _ => cases hp
  | writing _ _ => cases hp
  | failed tick hsource =>
      cases hp
      exact ⟨tick, hsource⟩
  | done v => cases hp

/-- What a step of a call does to the players seen so far: nothing, and then it ends with no list of its own, or it writes. -/
theorem refreshing_once (h : Refreshing msmp source miniverse_id p) (w : StatusWorld V) :
    Refreshing msmp source miniverse_id (p.once w).2 ∧
      ((p.once w).1.redis (seen_key miniverse_id) = w.redis (seen_key miniverse_id) ∧
          (∀ v, (p.once w).2 = .done (.ok v) → p = .done (.ok v) ∨ v = msmp.empty) ∨
        ∃ raw_player_list seen_player_dict, p = storeSeen msmp miniverse_id raw_player_list seen_player_dict ∧
          (p.once w).1.redis (seen_key miniverse_id) =
            some (msmp.dumps (msmp.add_seen seen_player_dict raw_player_list)) ∧
          (p.once w).2 = .done (.ok raw_player_list)) := by
  cases h with
  | start =>
      rw [get_msmp_player_list_eq, Async.once_step]
      cases hsource : source w.tick "minecraft:players" with
      | error e => exact ⟨.failed w.tick hsource, Or.inl ⟨rfl, fun v hv => by cases hv⟩⟩
      | ok raw_player_list =>
          exact ⟨.storing raw_player_list .start, Or.inl ⟨rfl, fun v hv => Or.inr (storing_done .start hv)⟩⟩
  | storing raw_player_list hq =>
      rcases storing_isDone hq with hdone | rfl
      · have hnext := ServerStatusStore.stage_next (by decide) hq w
        rw [Async.once_bind hdone]
        exact ⟨.storing raw_player_list hnext, Or.inl ⟨stage_frame hq w, fun v hv => Or.inr (storing_done hnext hv)⟩⟩
      · cases raw_player_list with
        | none => exact ⟨.done _, Or.inl ⟨rfl, fun v hv => Or.inl hv⟩⟩
        | some raw_player_list => exact ⟨.checking _ _, Or.inl ⟨rfl, fun v hv => by cases hv⟩⟩
  | checking raw_player_list seen_player_dict => exact ⟨.writing _ _, Or.inl ⟨rfl, fun v hv => by cases hv⟩⟩
  | writing raw_player_list seen_player_dict =>
      exact ⟨.done _, Or.inr ⟨raw_player_list, seen_player_dict, rfl, Function.update_self _ _ _, rfl⟩⟩
  | failed tick hsource => exact ⟨.failed tick hsource, Or.inl ⟨rfl, fun v hv => Or.inl hv⟩⟩
  | done v => exact ⟨.done v, Or.inl ⟨rfl, fun v hv => Or.inl hv⟩⟩

/-- The call has not read the dictionary, or has ended. -/
inductive OffDictionary (msmp : MSMPJson V) (source : Source V) (miniverse_id : String) :
    Async (StatusWorld V) (Except PyError V) → Prop
  | start : OffDictionary msmp source miniverse_id (get_msmp_player_list msmp source miniverse_id true)
  | storing (raw_player_list : Option V) {p : Async (StatusWorld V) (Except PyError Unit)} :
      ServerStatusStore.Stage msmp.toJson miniverse_id "minecraft:players" raw_player_list p →
      OffDictionary msmp source miniverse_id (p >>= afterSet msmp miniverse_id raw_player_list)
  | done (r : Except PyError V) : OffDictionary msmp source miniverse_id (.done r)

/-- The call is off the dictionary, or has read what is stored. -/
inductive UpToDate (msmp : MSMPJson V) (source : Source V) (miniverse_id : String) (stored : Option V) :
    Async (StatusWorld V) (Except PyError V) → Prop
  | off {p : Async (StatusWorld V) (Except PyError V)} : OffDictionary msmp source miniverse_id p →
      UpToDate msmp source miniverse_id stored p
  | checking (raw_player_list : V) : UpToDate msmp source miniverse_id stored (checkSeen msmp miniverse_id raw_player_list stored)
  | writing (raw_player_list : V) : UpToDate msmp source miniverse_id stored (storeSeen msmp miniverse_id raw_player_list stored)

/-- A call that is off the dictionary leaves it alone, and stays so or reads what is stored. -/
theorem OffDictionary.once (h : OffDictionary msmp source miniverse_id p) (w : StatusWorld V) :
    (p.once w).1.redis (seen_key miniverse_id) = w.redis (seen_key miniverse_id) ∧
      UpToDate msmp source miniverse_id ((w.redis (seen_key miniverse_id)).map msmp.loads) (p.once w).2 := by
  cases h with
  | start =>
      rw [get_msmp_player_list_eq, Async.once_step]
      cases source w.tick "minecraft:players" with
      | error e => exact ⟨rfl, .off (.done _)⟩
      | ok raw_player_list => exact ⟨rfl, .off (.storing raw_player_list .start)⟩
  | storing raw_player_list hq =>
      rcases storing_isDone hq with hdone | rfl
      · rw [Async.once_bind hdone]
        exact ⟨stage_frame hq w, .off (.storing raw_player_list (ServerStatusStore.stage_next (by decide) hq w))⟩
      · cases raw_player_list with
        | none => exact ⟨rfl, .off (.done _)⟩
        | some raw_player_list => exact ⟨rfl, .checking raw_player_list⟩
  | done r => exact ⟨rfl, .off (.done r)⟩

theorem writeList_once (raw_player_list : Option V) (w : StatusWorld V) :
    ((writeList msmp miniverse_id raw_player_list).once w).1.redis (players_key miniverse_id) =
      raw_player_list.map msmp.dumps := Function.update_self _ _ _

/-- A list that is to be written stays so, until it is written. -/
theorem Unwritten.once {raw_player_list : V} (h : Unwritten msmp source miniverse_id raw_player_list p)
    (w : StatusWorld V) :
    (p.once w).1.redis (players_key miniverse_id) = w.redis (players_key miniverse_id) ∧
        Unwritten msmp source miniverse_id raw_player_list (p.once w).2 ∨
      p = writeList msmp miniverse_id (some raw_player_list) := by
  cases h with
  | start hsource =>
      rw [get_msmp_player_list_eq, Async.once_step, hsource]
      exact Or.inl ⟨rfl, .storing⟩
  | storing =>
      rw [storeList_eq]
      exact Or.inl ⟨rfl, .writing⟩
  | writing => exact Or.inr rfl

/-- What a step of a call does to the players who are online: nothing, or it writes its list. -/
theorem refreshing_players (h : Refreshing msmp source miniverse_id p) (w : StatusWorld V) :
    (p.once w).1.redis (players_key miniverse_id) = w.redis (players_key miniverse_id) ∨
      ∃ raw_player_list, p = writeList msmp miniverse_id raw_player_list := by
  cases h with
  | start =>
      rw [get_msmp_player_list_eq]
      exact Or.inl rfl
  | storing raw_player_list hq =>
      cases hq with
      | start => exact Or.inl rfl
      | writing => exact Or.inr ⟨raw_player_list, rfl⟩
      | publishing =>
          rw [Async.once_bind (ServerStatusStore.isDone_publishing (by decide) _),
            ServerStatusStore.once_publishing (by decide)]
          exact Or.inl rfl
      | done => cases raw_player_list <;> exact Or.inl rfl
  | checking _ _ => exact Or.inl rfl
  | writing _ _ => exact Or.inl (Function.update_of_ne seen_key_ne_players_key.symm _ _)
  | failed _ _ => exact Or.inl rfl
  | done _ => exact Or.inl rfl

end BaseMiniverseService

end Backend
