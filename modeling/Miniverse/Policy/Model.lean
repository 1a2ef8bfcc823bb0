import Mathlib.Data.Set.Insert
import Miniverse.Core.Basic
import Miniverse.Lib.Runs

/-!
# The policy of the service

Who is known to the service, and the role of each user in each miniverse: which actions change this, and who may take them. Users and
miniverses are any things.
-/

namespace Backend

open Lib

/-- What is known of a user. -/
structure Account where
  username : String
  is_active : Bool
  role : Role

@[ext]
structure Rights (ι μ : Type) where
  accounts : ι → Option Account
  miniverses : Set μ
  roles : ι → μ → Role

/-- A user joins, or settles as the first user. A miniverse is founded with the role of its founder, who may end without one. -/
inductive Action (ι μ : Type) where
  | join (username : String)
  | settle (username : String)
  | rename (username : String)
  | leave
  | expel (user : ι)
  | reject (user : ι)
  | accept (user : ι)
  | promote (user : ι) (role : Role)
  | found (m : μ) (role : Role)
  | close (m : μ)
  | grant (user : ι) (m : μ) (role : Role)

namespace Rights

variable {ι μ : Type}

/-- An accepted user with at least the role. -/
def Active (r : Rights ι μ) (i : ι) (role : Role) : Prop := ∃ a, r.accounts i = some a ∧ a.is_active = true ∧ role ≤ a.role

/-- Somebody else has the role of an administrator. -/
def OtherAdmin (r : Rights ι μ) (i : ι) : Prop := ∃ j, j ≠ i ∧ ∃ a, r.accounts j = some a ∧ a.role = .admin

/-- No other user has the name. -/
def Free (r : Rights ι μ) (i : ι) (username : String) : Prop := ∀ j a, r.accounts j = some a → a.username = username → j = i

/-- Who may do what. -/
def Permits (r : Rights ι μ) (i : ι) : Action ι μ → Prop
  | .join username => r.accounts i = none ∧ (∃ j, r.accounts j ≠ none) ∧ r.Free i username
  | .settle _ => ∀ j, r.accounts j = none
  | .rename username => r.Active i .none ∧ r.Free i username
  | .leave => r.Active i .none ∧ (r.Active i .admin → r.OtherAdmin i)
  | .expel j => r.Active i .admin ∧ i ≠ j
  | .reject _ => r.Active i .admin
  | .accept j => r.Active i .admin ∧ r.accounts j ≠ none
  | .promote j _ => r.Active i .admin ∧ r.accounts j ≠ none ∧ (i = j → r.OtherAdmin i)
  | .found m role => r.Active i .moderator ∧ m ∉ r.miniverses ∧ (role = .none ∨ role = .admin)
  | .close m => r.Active i .none ∧ m ∈ r.miniverses ∧ r.roles i m = .admin
  | .grant j m _ => r.Active i .none ∧ m ∈ r.miniverses ∧ r.roles i m = .admin ∧ r.accounts j ≠ none

section Apply

variable [DecidableEq ι] [DecidableEq μ]

def setAccount (j : ι) (a : Option Account) (r : Rights ι μ) : Rights ι μ :=
  { r with accounts := fun i => if i = j then a else r.accounts i }

/-- The account and the roles of a user are gone. -/
def forget (j : ι) (r : Rights ι μ) : Rights ι μ :=
  { r with
    accounts := fun i => if i = j then none else r.accounts i
    roles := fun i m => if i = j then .none else r.roles i m }

def setRole (j : ι) (m : μ) (role : Role) (r : Rights ι μ) : Rights ι μ :=
  { r with roles := fun i n => if i = j ∧ n = m then role else r.roles i n }

/-- What an action of the user does. -/
def apply (i : ι) : Action ι μ → Rights ι μ → Rights ι μ
  | .join username, r => r.setAccount i (some ⟨username, false, .user⟩)
  | .settle username, r => r.setAccount i (some ⟨username, true, .admin⟩)
  | .rename username, r => r.setAccount i ((r.accounts i).map fun a => { a with username := username })
  | .leave, r => r.forget i
  | .expel j, r => r.forget j
  | .reject j, r => r.forget j
  | .accept j, r => r.setAccount j ((r.accounts j).map fun a => { a with is_active := true })
  | .promote j role, r => r.setAccount j ((r.accounts j).map fun a => { a with role := role })
  | .found m role, r => { r.setRole i m role with miniverses := insert m r.miniverses }
  | .close m, r => { r with miniverses := r.miniverses \ {m}, roles := fun j n => if n = m then .none else r.roles j n }
  | .grant j m role, r => r.setRole j m role

/-- The user is let in, as the first user or with an account that takes the name, and leaves these rights. -/
inductive Admits (r : Rights ι μ) (i : ι) (username : String) : Rights ι μ → Prop
  | first : r.Permits i (.settle username) → Admits r i username (r.apply i (.settle username))
  | known : r.Permits i (.rename username) → Admits r i username (r.apply i (.rename username))

/-- An action of a user, as a request that is handled. -/
def take (x : ι × Action ι μ) : Eff (Rights ι μ) Empty Unit := Eff.modify (apply x.1 x.2)

end Apply

def Allows (r : Rights ι μ) (x : ι × Action ι μ) : Prop := r.Permits x.1 x.2

end Rights

end Backend
