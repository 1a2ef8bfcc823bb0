import Miniverse.Status.Service

/-!
# Writing and publishing

The stages of a call that sets a status, and what its steps do.
-/

namespace Backend

open Lib

variable {V ι : Type} {json : Json V} {miniverse_id method_name : String} {value : Option V}

namespace ServerStatusStore

/-- The call has written, and publishes next. -/
def publishing (miniverse_id method_name : String) (value : Option V) : Async (StatusWorld V) (Except PyError Unit) :=
  publish_status miniverse_id method_name value

/-- The call has found another value, and writes next. -/
def writing (json : Json V) (miniverse_id method_name : String) (value : Option V) :
    Async (StatusWorld V) (Except PyError Unit) := do
  redis_put (status_key miniverse_id method_name) (value.map json.dumps)
  publishing miniverse_id method_name value

/-- Where a call with publication is. -/
inductive Stage (json : Json V) (miniverse_id method_name : String) (value : Option V) :
    Async (StatusWorld V) (Except PyError Unit) → Prop
  | start : Stage json miniverse_id method_name value (set json miniverse_id method_name value true)
  | writing : Stage json miniverse_id method_name value (writing json miniverse_id method_name value)
  | publishing : Stage json miniverse_id method_name value (publishing miniverse_id method_name value)
  | done : Stage json miniverse_id method_name value (.done (.ok ()))

theorem set_eq (json : Json V) (miniverse_id method_name : String) (value : Option V) :
    set json miniverse_id method_name value true = Async.step id fun w =>
      if differs ((w.redis (status_key miniverse_id method_name)).map Bytes.mk) (value.map json.dumps) then
        writing json miniverse_id method_name value
      else .done (.ok ()) := rfl

theorem writing_eq (json : Json V) (miniverse_id method_name : String) (value : Option V) :
    writing json miniverse_id method_name value = Async.step
      (fun w => { w with
        redis := Function.update w.redis (status_key miniverse_id method_name) (value.map json.dumps) })
      fun _ => publishing miniverse_id method_name value := rfl

theorem publishing_eq (hmethod : method_name ∈ event_types) (value : Option V) :
    publishing miniverse_id method_name value = Async.step
      (fun w => { w with published := w.published ++ [⟨miniverse_id, method_name, value⟩] })
      fun _ => .done (.ok ()) := by
  rw [publishing, publish_status, if_pos hmethod]
  rfl

/-- A program that publishes next is not at its end, and its step changes the state. -/
theorem once_publishing (hmethod : method_name ∈ event_types) (value : Option V) (w : StatusWorld V) :
    (publishing miniverse_id method_name value).once w =
      ({ w with published := w.published ++ [⟨miniverse_id, method_name, value⟩] }, .done (.ok ())) := by
  rw [publishing_eq hmethod]
  rfl

theorem ne_publishing (hmethod : method_name ∈ event_types) {p : Async (StatusWorld V) (Except PyError Unit)}
    {w : StatusWorld V} (h : (p.once w).1.published = w.published) (value : Option V) :
    p ≠ publishing miniverse_id method_name value := by
  rintro rfl
  rw [once_publishing hmethod] at h
  simp at h

theorem isDone_publishing (hmethod : method_name ∈ event_types) (value : Option V) :
    (publishing miniverse_id method_name value).isDone = false := by
  rw [publishing_eq hmethod]
  rfl

/-- What a step of a call does: it reads, it writes and publishes next, or it publishes. -/
theorem stage_once {p : Async (StatusWorld V) (Except PyError Unit)}
    (h : Stage json miniverse_id method_name value p) (w : StatusWorld V) :
    (p.once w).1 = w ∨
      p.once w = ({ w with
          redis := Function.update w.redis (status_key miniverse_id method_name) (value.map json.dumps) },
        publishing miniverse_id method_name value) ∨
      p = publishing miniverse_id method_name value := by
  cases h with
  | start => exact Or.inl rfl
  | writing => exact Or.inr (Or.inl rfl)
  | publishing => exact Or.inr (Or.inr rfl)
  | done => exact Or.inl rfl

theorem stage_next (hmethod : method_name ∈ event_types) {p : Async (StatusWorld V) (Except PyError Unit)}
    (h : Stage json miniverse_id method_name value p) (w : StatusWorld V) :
    Stage json miniverse_id method_name value (p.once w).2 := by
  cases h with
  | start =>
      rw [set_eq, Async.once_step]
      split
      · exact .writing
      · exact .done
  | writing => exact .publishing
  | publishing =>
      rw [once_publishing hmethod]
      exact .done
  | done => exact .done

/-! ## Calls without publication -/

/-- Where a call without publication is. -/
inductive QuietStage (json : Json V) (miniverse_id method_name : String) (value : Option V) :
    Async (StatusWorld V) (Except PyError Unit) → Prop
  | start : QuietStage json miniverse_id method_name value (set json miniverse_id method_name value false)
  | writing : QuietStage json miniverse_id method_name value
      (redis_put (status_key miniverse_id method_name) (value.map json.dumps) >>= fun _ => .done (.ok ()))
  | done : QuietStage json miniverse_id method_name value (.done (.ok ()))

theorem quiet_once {p : Async (StatusWorld V) (Except PyError Unit)}
    (h : QuietStage json miniverse_id method_name value p) (w : StatusWorld V) :
    (p.once w).1.published = w.published ∧
      ∀ key, key ≠ status_key miniverse_id method_name → (p.once w).1.redis key = w.redis key := by
  cases h with
  | start => exact ⟨rfl, fun _ _ => rfl⟩
  | writing => exact ⟨rfl, fun _ hne => Function.update_of_ne hne _ _⟩
  | done => exact ⟨rfl, fun _ _ => rfl⟩

theorem quiet_next {p : Async (StatusWorld V) (Except PyError Unit)}
    (h : QuietStage json miniverse_id method_name value p) (w : StatusWorld V) :
    QuietStage json miniverse_id method_name value (p.once w).2 := by
  cases h with
  | start =>
      have heq : set json miniverse_id method_name value false = Async.step id fun w =>
          if differs ((w.redis (status_key miniverse_id method_name)).map Bytes.mk) (value.map json.dumps) then
            redis_put (status_key miniverse_id method_name) (value.map json.dumps) >>= fun _ => .done (.ok ())
          else .done (.ok ()) := rfl
      rw [heq, Async.once_step]
      split
      · exact .writing
      · exact .done
  | writing => exact .done
  | done => exact .done

end ServerStatusStore

end Backend
