import Miniverse.Lib.Views
import Miniverse.Status.Lemmas.Alone

/-!
# The status of one miniverse

What an observer of one miniverse sees of the status store and of the channel, and which programs he sees.
-/

namespace Backend

open Lib

variable {V : Type}

/-- The stored texts of the miniverse and its events in their order. A method name has no dot. -/
def StatusWorld.view (miniverse_id : String) (w : StatusWorld V) :
    ({method_name : String // '.' ∉ method_name.toList} → Option String) × List (ControlEvent V) :=
  (fun method_name => w.redis (status_key miniverse_id method_name),
    w.published.filter fun e => decide (e.miniverse_id = miniverse_id))

/-! ## Programs of one miniverse -/

/-- A kind of programs that has the calls of a miniverse to Redis, to the channel and to its server. -/
structure AllowsStatus (K : ∀ ⦃β : Type⦄, Async (StatusWorld V) β → Prop) (miniverse_id : String) : Prop where
  done : ∀ ⦃β : Type⦄ (b : β), K (.done b)
  bind : ∀ ⦃β γ : Type⦄ {p : Async (StatusWorld V) β} {k : β → Async (StatusWorld V) γ}, K p → (∀ b, K (k b)) → K (p >>= k)
  get : ∀ method_name, '.' ∉ method_name.toList → K (redis_get (status_key miniverse_id method_name))
  put : ∀ method_name json_value, '.' ∉ method_name.toList → K (redis_put (status_key miniverse_id method_name) json_value)
  publish : ∀ event_type data, K (publish_miniverse_control_event miniverse_id event_type data)
  ask : ∀ (answer : String → Except PyError (Option V)) method_name,
    K (BaseMiniverseService.get_data_from_source (fun _ => answer) method_name)

namespace AllowsStatus

variable {K : ∀ ⦃β : Type⦄, Async (StatusWorld V) β → Prop} {miniverse_id method_name : String} (h : AllowsStatus K miniverse_id)

include h

theorem store_get (json : Json V) (hname : '.' ∉ method_name.toList) : K (ServerStatusStore.get json miniverse_id method_name) :=
  h.bind (h.get _ hname) fun _ => h.done _

theorem store_set (json : Json V) (hname : '.' ∉ method_name.toList) (value : Option V) (publish : Bool) :
    K (ServerStatusStore.set json miniverse_id method_name value publish) := by
  unfold ServerStatusStore.set
  refine h.bind (h.get _ hname) fun old_json_value => ?_
  dsimp only
  split
  · refine h.bind (h.put _ _ hname) fun _ => ?_
    split
    · unfold publish_status
      split
      · exact h.bind (h.publish _ _) fun _ => h.done _
      · exact h.done _
    · exact h.done _
  · exact h.done _

theorem get_data_cached (json : Json V) (hname : '.' ∉ method_name.toList) (answer : String → Except PyError (Option V))
    (refresh_cache : Bool) :
    K (BaseMiniverseService.get_data_cached json (fun _ => answer) miniverse_id method_name refresh_cache) := by
  unfold BaseMiniverseService.get_data_cached
  extract_lets rest
  have hrest (cached : Option V) : K (rest cached) := by
    cases cached with
    | some raw_data => exact h.done _
    | none =>
        refine h.bind (h.ask answer method_name) fun raw_data => ?_
        cases raw_data with
        | error e => exact h.done _
        | ok raw_data =>
            refine h.bind (h.store_set json hname raw_data true) fun set => ?_
            cases set with
            | error e => exact h.done _
            | ok _ => exact h.done _
  cases refresh_cache with
  | true => exact hrest none
  | false => exact h.bind (h.store_get json hname) hrest

theorem get_msmp_player_list (msmp : MSMPJson V) (answer : String → Except PyError (Option V)) (refresh_cache : Bool) :
    K (BaseMiniverseService.get_msmp_player_list msmp (fun _ => answer) miniverse_id refresh_cache) := by
  unfold BaseMiniverseService.get_msmp_player_list
  refine h.bind (h.get_data_cached _ (by decide) answer refresh_cache) fun r => ?_
  rcases r with e | ⟨_ | raw_player_list, _ | _⟩
  · exact h.done _
  · exact h.done _
  · exact h.done _
  · exact h.done _
  · refine h.bind (h.store_get _ (by decide)) fun seen_player_dict => ?_
    refine h.bind (h.store_set _ (by decide) _ _) fun set => ?_
    cases set with
    | error e => exact h.done _
    | ok _ => exact h.done _

theorem get_msmp_seen_player_list (msmp : MSMPJson V) : K (BaseMiniverseService.get_msmp_seen_player_list msmp miniverse_id) :=
  h.bind (h.store_get _ (by decide)) fun _ => h.done _

end AllowsStatus

/-! ## Seen and unseen -/

/-- The miniverse itself sees what its programs do, and they look at nothing else. -/
theorem own_status (miniverse_id : String) :
    AllowsStatus (fun _ p => Async.Own (StatusWorld.view (V := V) miniverse_id) p) miniverse_id where
  done _ _ := trivial
  bind _ _ _ _ := Async.Own.bind
  get method_name hname := Async.own_look fun s t hsame =>
    congrArg (Option.map Bytes.mk) (congrFun (congrArg Prod.fst hsame) ⟨method_name, hname⟩)
  put method_name json_value hname := Async.own_act fun s t hsame => by
    have hevents := congrArg Prod.snd hsame
    refine Prod.ext (funext fun name => ?_) hevents
    show Function.update s.redis _ json_value _ = Function.update t.redis _ json_value _
    by_cases heq : status_key miniverse_id name = status_key miniverse_id method_name
    · rw [heq, Function.update_self, Function.update_self]
    · rw [Function.update_of_ne heq, Function.update_of_ne heq]
      exact congrFun (congrArg Prod.fst hsame) name
  publish event_type data := Async.own_act fun s t hsame => by
    have hstored := congrArg Prod.fst hsame
    refine Prod.ext hstored ?_
    show (s.published ++ [_]).filter _ = (t.published ++ [_]).filter _
    rw [List.filter_append, List.filter_append]
    exact congrArg (· ++ _) (congrArg Prod.snd hsame)
  ask answer method_name := ⟨fun s t hsame => ⟨hsame, rfl⟩, fun _ => trivial⟩

/-- Nobody sees what the programs of another miniverse do. -/
theorem unseen_status {miniverse_id other : String} (hne : other ≠ miniverse_id) :
    AllowsStatus (fun _ p => Async.Unseen (StatusWorld.view (V := V) miniverse_id) p) other where
  done _ _ := trivial
  bind _ _ _ _ := Async.All.bind
  get _ _ := Async.unseen_look _
  put method_name json_value hname := Async.unseen_act fun s => by
    refine Prod.ext (funext fun name => ?_) rfl
    exact Function.update_of_ne (fun heq => hne (status_key_inj name.2 hname heq).1.symm) _ _
  publish event_type data := Async.unseen_act fun s => by
    refine Prod.ext rfl ?_
    show (s.published ++ [_]).filter _ = s.published.filter _
    rw [List.filter_append, List.filter_cons_of_neg (by simpa using hne), List.filter_nil, List.append_nil]
  ask _ _ := ⟨fun _ => rfl, fun _ => trivial⟩

end Backend
