import Miniverse.Lib.Checked
import Miniverse.Lib.Ghost
import Miniverse.Mods.Lemmas.Rows
import Miniverse.Requests.Mods

/-!
# Installs that overlap

What the steps of the requests on mods do to the table, and what is known of the identifiers of its rows.
-/

namespace Backend

open Lib

variable {α β γ ι : Type} {env : Env α} {id : Uuid4}

/-- No project of the miniverse has two rows. -/
def Database.OneRowPerProject (db : Database) (id : Uuid4) : Prop := ((db.modsOf id).filterMap (·.project_id)).Nodup

/-- No row of the miniverse has the project. -/
def Database.LacksProject (db : Database) (id : Uuid4) (project_id : String) : Prop :=
  ∀ r ∈ db.modsOf id, r.project_id ≠ some project_id

namespace Requests

/-! ## Steps -/

/-- The rows of the mods stay, and the ticks go on. -/
def RowsStay (w w' : World α) : Prop := w'.db.mods = w.db.mods ∧ w.tick ≤ w'.tick

instance : Std.Refl (RowsStay (α := α)) := ⟨fun w => ⟨rfl, Nat.le_refl w.tick⟩⟩

instance : IsTrans (World α) RowsStay := ⟨fun _ _ _ h₁ h₂ => ⟨h₂.1.trans h₁.1, Nat.le_trans h₁.2 h₂.2⟩⟩

/-- A program that never changes the rows. -/
def Mute (p : Awaiting α β) : Prop := Async.All (fun f => ∀ w, RowsStay w (f w)) p.run

theorem Mute.bind {p : Awaiting α β} {k : β → Awaiting α γ} (hp : Mute p) (hk : ∀ b, Mute (k b)) : Mute (p >>= k) :=
  Async.All.bind_except hp hk

/-- Time goes on, and no row is added. -/
def NoneAdded (w w' : World α) : Prop := w.tick ≤ w'.tick ∧ (w'.db.mods.map (·.id)).Sublist (w.db.mods.map (·.id))

def OneAdded (w w' : World α) : Prop := w.tick ≤ w'.tick ∧ ∃ mod, w'.db.mods = w.db.mods ++ [mod]

/-- A step that adds one row at most. -/
def AddsOne (f : World α → World α) : Prop := ∀ w, NoneAdded w (f w) ∨ OneAdded w (f w)

theorem tick_commit (f : Database → Database) (w : World α) : (commit env f w).2.tick = w.tick + 1 := by
  rcases commit_cases env f w with ⟨e, hrun⟩ | hrun <;> rw [hrun] <;> rfl

/-- A new row is refused, or it comes after the others. -/
theorem addMod_cases (env : Env α) (mod : Mod) (w : World α) :
    (w.tick ≤ (addMod env mod w).2.tick ∧ (addMod env mod w).2.db = w.db) ∨
      (w.tick ≤ (addMod env mod w).2.tick ∧ (addMod env mod w).2.db = { w.db with mods := w.db.mods ++ [mod] }) := by
  have hread : addMod env mod w = (do
      Eff.raiseIf (w.db.mods.any fun r => decide (r.id = mod.id)) .integrityError
      commit env fun db => { db with mods := db.mods ++ [mod] } : Act α Unit) w := rfl
  rw [hread]
  cases w.db.mods.any fun r => decide (r.id = mod.id) with
  | true => exact Or.inl ⟨Nat.le_refl w.tick, rfl⟩
  | false =>
      rw [Eff.raiseIf_false_bind, tick_commit]
      rcases commit_cases env (fun db => { db with mods := db.mods ++ [mod] }) w with ⟨e, hrun⟩ | hrun
      · rw [hrun]
        exact Or.inl ⟨Nat.le_succ w.tick, rfl⟩
      · rw [hrun]
        exact Or.inr ⟨Nat.le_succ w.tick, rfl⟩

/-- The miniverse and the project of the row that an identifier is for. -/
abbrev Ledger := Uuid4 → Option (Uuid4 × Option String)

def entry (mod : Mod) : Uuid4 × Option String := (mod.miniverse_id, mod.project_id)

/-- The rows are as the ledger says, and no identifier that is still to be handed out is in it. -/
structure Assigned (env : Env α) (id : Uuid4) (N : Nat) (g : Ledger) (w : World α) : Prop where
  rows : ∀ r ∈ w.db.mods, g r.id = some (entry r)
  free : ∀ n, w.tick ≤ n → n < N → g (env.uuid4 n) = none
  once : ∀ m n, w.tick ≤ m → m < n → n < N → env.uuid4 m ≠ env.uuid4 n
  project : w.db.OneRowPerProject id

def ledger (env : Env α) (id : Uuid4) (N : Nat) : Ghost (World α) Ledger where
  Grows g g' := ∀ i k, g i = some k → g' i = some k
  Inv := Assigned env id N
  refl _ _ _ h := h
  trans h₁ h₂ i k h := h₂ i k (h₁ i k h)

/-- The step adds a row of the project to the miniverse. -/
def AddsRow (id : Uuid4) (project_id : String) (f : World α → World α) (w : World α) : Prop :=
  ∃ mod, (f w).db.mods = w.db.mods ++ [mod] ∧ mod.miniverse_id = id ∧ mod.project_id = some project_id

/-- A step that adds a row finds none of its project. -/
def AddsNew (id : Uuid4) (f : World α → World α) (w : World α) : Prop :=
  ∀ project_id, AddsRow id project_id f w → w.db.LacksProject id project_id

/-- A step as `AddsNew` asks for, not after the tick. -/
def AddsNewBy (id : Uuid4) (N : Nat) (f : World α → World α) (w : World α) : Prop :=
  AddsNew id f w ∧ (f w).tick ≤ N

section Assigned

variable {N : Nat} {g : Ledger} {w w' : World α} {mod : Mod}

theorem projects_eq (db : Database) (id : Uuid4) : (db.modsOf id).filterMap (·.project_id) =
    (db.mods.map entry).filterMap fun e => if e.1 = id then e.2 else none := by
  rw [Database.modsOf, List.filterMap_filter, List.filterMap_map]
  refine List.filterMap_congr fun r _ => ?_
  by_cases hid : r.miniverse_id = id
  · simp [entry, hid]
  · simp [entry, hid]

theorem Assigned.later (h : Assigned env id N g w) (htick : w.tick ≤ w'.tick) (hrows : ∀ r ∈ w'.db.mods, g r.id = some (entry r))
    (hproject : w'.db.OneRowPerProject id) : Assigned env id N g w' where
  rows := hrows
  free n hn hN := h.free n (Nat.le_trans htick hn) hN
  once m n hm hmn hN := h.once m n (Nat.le_trans htick hm) hmn hN
  project := hproject

theorem Assigned.mute (h : Assigned env id N g w) (hstay : RowsStay w w') : Assigned env id N g w' := by
  refine h.later hstay.2 (fun r hr => h.rows r (hstay.1 ▸ hr)) ?_
  have hproject := h.project
  unfold Database.OneRowPerProject Database.modsOf at hproject ⊢
  rw [hstay.1]
  exact hproject

theorem Assigned.remove (h : Assigned env id N g w) (mod : Mod) : Assigned env id N g
    (commit env (fun db => { db with mods := db.mods.filter fun r => decide (r.id ≠ mod.id) }) w).2 := by
  rcases commit_cases env (fun db => { db with mods := db.mods.filter fun r => decide (r.id ≠ mod.id) }) w with
    ⟨e, hrun⟩ | hrun
  · rw [hrun]
    exact h.mute ⟨rfl, Nat.le_succ w.tick⟩
  · rw [hrun]
    refine h.later (Nat.le_succ w.tick) (fun r hr => h.rows r (List.mem_of_mem_filter hr)) ?_
    exact h.project.sublist ((List.filter_sublist.filter _).filterMap _)

/-- The row that is written has the project of the row that it replaces. -/
theorem Assigned.save (h : Assigned env id N g w) (hmod : g mod.id = some (entry mod)) :
    Assigned env id N g (commit env (·.saveMod mod) w).2 := by
  have hsame : ∀ r ∈ w.db.mods, entry (if r.id = mod.id then mod else r) = entry r := by
    intro r hr
    by_cases hid : r.id = mod.id
    · rw [if_pos hid]
      exact Option.some.inj (hmod.symm.trans (hid ▸ h.rows r hr))
    · rw [if_neg hid]
  rcases commit_cases env (·.saveMod mod) w with ⟨e, hrun⟩ | hrun
  · rw [hrun]
    exact h.mute ⟨rfl, Nat.le_succ w.tick⟩
  · rw [hrun]
    refine h.later (Nat.le_succ w.tick) (fun r hr => ?_) ?_
    · obtain ⟨r₀, hr₀, rfl⟩ := List.mem_map.mp hr
      rw [hsame r₀ hr₀, ← h.rows r₀ hr₀]
      by_cases hid : r₀.id = mod.id
      · rw [if_pos hid, hid]
      · rw [if_neg hid]
    · have hentries : (w.db.saveMod mod).mods.map entry = w.db.mods.map entry := by
        rw [Database.saveMod, List.map_map]
        exact List.map_congr_left hsame
      have hproject := h.project
      rw [Database.OneRowPerProject, projects_eq] at hproject ⊢
      exact hentries ▸ hproject

theorem Assigned.add (h : Assigned env id N g w) (hmod : g mod.id = some (entry mod))
    (hnew : AddsNew id (fun w => (addMod env mod w).2) w) :
    Assigned env id N g (addMod env mod w).2 := by
  rcases addMod_cases env mod w with ⟨htick, hdb⟩ | ⟨htick, hdb⟩
  · exact h.mute ⟨congrArg Database.mods hdb, htick⟩
  · refine h.later htick (fun r hr => ?_) ?_
    · rw [hdb] at hr
      rcases List.mem_append.mp hr with hr | hr
      · exact h.rows r hr
      · rw [List.mem_singleton.mp hr, hmod]
    · have hproject := h.project
      rw [hdb]
      unfold Database.OneRowPerProject Database.modsOf at hproject ⊢
      rw [List.filter_append, List.filterMap_append]
      by_cases hid : mod.miniverse_id = id
      · cases hown : mod.project_id with
        | none => simpa [hid, hown] using hproject
        | some project_id =>
            refine List.nodup_append.mpr ⟨hproject, ?_, ?_⟩
            · simp [hid, hown]
            · intro p hp q hq
              obtain ⟨r, hr, hrp⟩ := List.mem_filterMap.mp hp
              have hq : q = project_id := by simpa [hid, hown] using hq
              rintro rfl
              exact hnew project_id ⟨mod, congrArg Database.mods hdb, hid, hown⟩ r hr (hq ▸ hrp)
      · simpa [hid] using hproject

/-- The identifier that is handed out is written down for a row. -/
theorem Assigned.take (h : Assigned env id N g w) (hN : w.tick < N) (k : Uuid4 × Option String) :
    (ledger env id N).Grows g (Function.update g (env.uuid4 w.tick) (some k)) ∧
      Assigned env id N (Function.update g (env.uuid4 w.tick) (some k)) w.next := by
  have hfree := h.free w.tick (Nat.le_refl _) hN
  have hgrows : ∀ i k', g i = some k' → Function.update g (env.uuid4 w.tick) (some k) i = some k' := by
    intro i k' hi
    rw [Function.update_of_ne, hi]
    rintro rfl
    rw [hfree] at hi
    cases hi
  refine ⟨hgrows, fun r hr => hgrows _ _ (h.rows r hr), fun n hn hnN => ?_, fun m n hm hmn hnN => ?_, h.project⟩
  · rw [Function.update_of_ne (h.once w.tick n (Nat.le_refl _) hn hnN).symm]
    exact h.free n (Nat.le_of_succ_le hn) hnN
  · exact h.once m n (Nat.le_of_succ_le hm) hmn hnN

end Assigned

/-! ## Programs -/

/-- The program keeps the ledger, and what it returns is in it. -/
def Keeps (env : Env α) (id : Uuid4) (N : Nat) (P : Ledger → β → Prop) (p : Awaiting α β) (g : Ledger) : Prop :=
  Async.Safe (ledger env id N) (AddsNewBy id N) (Async.Returned P) p.run g

section Keeps

variable {N : Nat} {g : Ledger} {P : Ledger → β → Prop} {Q : Ledger → γ → Prop} {F : Ledger → Prop}

theorem Keeps.bind {p : Awaiting α β} {k : β → Awaiting α γ} (hp : Keeps env id N P p g)
    (hk : ∀ g b, P g b → Keeps env id N Q (k b) g) : Keeps env id N Q (p >>= k) g :=
  Async.Safe.bind_except hp hk

end Keeps

/-! ## Looking for a row -/

/-- A step that may add a row of the project to the miniverse. -/
def MayAdd (id : Uuid4) (project_id : String) (f : World α → World α) : Prop := ∃ w, AddsRow id project_id f w

/-- What is left of a request adds no row of the project unless it takes a step while there is none: it has not looked yet, or
adds none at all. -/
def LooksFirst (id : Uuid4) (project_id : String) : Async (World α) β → Prop :=
  Async.ChecksFirst (MayAdd id project_id) fun w => w.db.LacksProject id project_id

variable {project_id : String}

section Turns

variable [DecidableEq ι] {request : ι → ModRequest} {c : Arrivals (World α) ι (Except PyError Unit)} {w w' : World α}
  {N : Nat} {g g' : Ledger} {i : ι}

/-- A row of a project is added only while no other request is between its look for one of the project and the end of its
own installation. -/
def AddsAlone (env : Env α) (id : Uuid4) (request : ι → ModRequest) (c : Arrivals (World α) ι (Except PyError Unit)) (i : ι) :
    Prop :=
  ∀ f project_id, (c.program (ModRequests.programs env request) i).Next f → AddsRow id project_id f c.shared →
    ∀ j, j ≠ i → LooksFirst id project_id (c.program (ModRequests.programs env request) j)

/-- The ledger fits, and each request that is past its look has a project without a row. -/
structure Looking (env : Env α) (id : Uuid4) (N : Nat) (request : ι → ModRequest) (g : Ledger)
    (c : Arrivals (World α) ι (Except PyError Unit)) : Prop where
  ledger : Arrivals.SafeAt (ledger env id N) (AddsNewBy id N) (ModRequests.programs env request) g c
  steps : ∀ j, Async.All AddsOne (c.program (ModRequests.programs env request) j)
  once : ∀ project_id j, Async.ActsOnce (MayAdd id project_id) (c.program (ModRequests.programs env request) j)
  checked : ∀ project_id, Arrivals.Checked (fun _ => MayAdd id project_id) (fun _ w => w.db.LacksProject id project_id)
    (ModRequests.programs env request) c

/-- Without a new row of the project, there is still none: rows keep their projects. -/
theorem lacksProject_of_step (h : Assigned env id N g w) (h' : Assigned env id N g' w')
    (hgrows : (ledger env id N).Grows g g') {f : World α → World α} (hw' : w' = f w) (hf : AddsOne f)
    (hnone : ¬ AddsRow id project_id f w) (hlacks : w.db.LacksProject id project_id) : w'.db.LacksProject id project_id := by
  intro r hr hproject
  obtain ⟨hmem, hid⟩ := mem_modsOf.mp hr
  have hold (r₀ : Mod) (hr₀ : r₀ ∈ w.db.mods) (heq : r₀.id = r.id) : False := by
    have hentry : some (entry r₀) = some (entry r) := by
      rw [← h'.rows r hmem, ← heq, hgrows _ _ (h.rows r₀ hr₀)]
    obtain ⟨hminiverse, hproject₀⟩ := Prod.mk.inj (Option.some.inj hentry)
    exact hlacks r₀ (mem_modsOf.mpr ⟨hr₀, hminiverse.trans hid⟩) (hproject₀.trans hproject)
  rcases hf w with ⟨_, hids⟩ | ⟨_, mod, hmods⟩
  · obtain ⟨r₀, hr₀, heq⟩ := List.mem_map.mp (hids.subset (List.mem_map_of_mem (hw' ▸ hmem)))
    exact hold r₀ hr₀ heq
  · rw [hw', hmods] at hmem
    rcases List.mem_append.mp hmem with hmem | hmem
    · exact hold r hmem rfl
    · obtain rfl := List.mem_singleton.mp hmem
      exact hnone ⟨r, hmods, hid, hproject⟩

/-- After a turn that adds a row of the project, no request is past its look for one. -/
theorem Looking.added (h : Looking env id N request g c) (halone : AddsAlone env id request c i)
    {f : World α → World α} (hnext : (c.program (ModRequests.programs env request) i).Next f)
    (hadds : AddsRow id project_id f c.shared) (j : ι) :
    LooksFirst id project_id ((c.turn (ModRequests.programs env request) i).program (ModRequests.programs env request) j) := by
  by_cases hj : j = i
  · subst hj
    obtain ⟨next, hp⟩ := hnext
    have honce := h.once project_id j
    rw [hp] at honce
    rw [Arrivals.program_turn_self, hp]
    exact ((honce c.shared).2 ⟨c.shared, hadds⟩).checksFirst
  · rw [Arrivals.program_turn_ne hj]
    exact halone f project_id hnext hadds j hj

theorem Looking.turn (h : Looking env id N request g c) (halone : AddsAlone env id request c i)
    (htick : (c.turn (ModRequests.programs env request) i).shared.tick ≤ N) :
    ∃ g', Looking env id N request g' (c.turn (ModRequests.programs env request) i) := by
  have hcond : Arrivals.StepMeets (AddsNewBy id N) (ModRequests.programs env request) c i := by
    intro f hnext
    refine ⟨fun project_id hadds => (h.checked project_id).free_of_next hnext ⟨c.shared, hadds⟩, ?_⟩
    obtain ⟨next, hp⟩ := hnext
    have hshared : (c.turn (ModRequests.programs env request) i).shared = f c.shared :=
      congrArg (fun p => (p.once c.shared).1) hp
    exact hshared ▸ htick
  obtain ⟨g', hgrows, hledger⟩ := h.ledger.turn hcond
  refine ⟨g', hledger, Arrivals.forall_turn h.steps ((h.steps i).once c.shared).1, fun project_id =>
    Arrivals.forall_turn (h.once project_id) ((h.once project_id i).once c.shared), fun project_id =>
      (h.checked project_id).turn fun j hlacks => ?_⟩
  by_cases hadded : ∃ f, (c.program (ModRequests.programs env request) i).Next f ∧ AddsRow id project_id f c.shared
  · obtain ⟨f, hnext, hadds⟩ := hadded
    exact Or.inr (h.added halone hnext hadds j)
  · left
    have hstep := h.steps i
    cases hp : c.program (ModRequests.programs env request) i with
    | done a =>
        have hshared : (c.turn (ModRequests.programs env request) i).shared = c.shared :=
          congrArg (fun p => (p.once c.shared).1) hp
        rw [hshared]
        exact hlacks
    | step f next =>
        rw [hp] at hstep
        exact lacksProject_of_step h.ledger.inv hledger.inv hgrows (congrArg (fun p => (p.once c.shared).1) hp) hstep.1
          (fun hadds => hadded ⟨f, ⟨next, hp⟩, hadds⟩) hlacks

end Turns

end Requests

end Backend
