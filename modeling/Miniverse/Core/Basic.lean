import Mathlib.Data.Bool.AllAny
import Miniverse.Lib.Disk

/-!
# Exceptions, roles and identifiers of the backend
-/

namespace Backend

open Lib

/-- The exceptions that the code raises or lets through. -/
inductive PyError where
  | valueError (message : String)
  | typeError
  | attributeError
  | keyError (key : String)
  | indexError
  | assertionError
  | notImplementedError
  | recursionError
  | unicodeEncodeError
  | os (error : OSError)
  | shutilError
  | badZipFile
  | zipMember
  | validation (detail : String)
  | notFound (detail : String)
  | notAuthorized (detail : String)
  | permissionDenied (detail : String)
  | http (status_code : Nat) (detail : String)
  | integrityError
  | docker
  | dockerNotFound
  | httpx
  | rpc
deriving DecidableEq, Repr

instance : RaisesOS PyError := ⟨.os⟩

/-- `OSError` and its subclasses, among them `shutil.Error`. -/
def PyError.isOSError : PyError → Bool
  | .os _ => true
  | .shutilError => true
  | _ => false

inductive Role where
  | none
  | user
  | moderator
  | admin
deriving DecidableEq, Repr

namespace Role

def role_value : Role → Nat
  | none => 0
  | user => 1
  | moderator => 2
  | admin => 3

instance : LE Role := ⟨fun a b => a.role_value ≤ b.role_value⟩

instance : LT Role := ⟨fun a b => a.role_value < b.role_value⟩

instance (a b : Role) : Decidable (a ≤ b) := inferInstanceAs (Decidable (a.role_value ≤ b.role_value))

instance (a b : Role) : Decidable (a < b) := inferInstanceAs (Decidable (a.role_value < b.role_value))

theorem not_lt {a b : Role} : ¬ a < b ↔ b ≤ a := Nat.not_lt

theorem admin_le {r : Role} : Role.admin ≤ r ↔ r = .admin := by
  cases r <;> decide

theorem none_lt {r : Role} : Role.none < r ↔ r ≠ .none := by
  cases r <;> decide

end Role

/-! ## Identifiers -/

def hexDigits : List Char :=
  ['0', '1', '2', '3', '4', '5', '6', '7', '8', '9', 'a', 'b', 'c', 'd', 'e', 'f']

/-- One character of `str(uuid4())` against the form `xxxxxxxx-xxxx-4xxx-yxxx-xxxxxxxxxxxx`. -/
def fitsUuid4 : Char → Char → Bool
  | 'x', c => decide (c ∈ hexDigits)
  | 'y', c => decide (c ∈ ['8', '9', 'a', 'b'])
  | t, c => decide (c = t)

def uuid4Form : List Char := "xxxxxxxx-xxxx-4xxx-yxxx-xxxxxxxxxxxx".toList

/-- The strings `str(uuid4())` gives. -/
def isUuid4 (s : String) : Bool :=
  decide (s.toList.length = 36) && ((uuid4Form.zip s.toList).all fun tc => fitsUuid4 tc.1 tc.2)

/-- An identifier as `Miniverse.id` and `Mod.id` get it by default. -/
structure Uuid4 where
  str : String
  ok : isUuid4 str = true
deriving DecidableEq

/-- The characters of an identifier. -/
theorem fitsUuid4_char {t c : Char} (ht : t ∈ uuid4Form) (h : fitsUuid4 t c = true) : c ∈ '-' :: hexDigits := by
  have key : ∀ t ∈ uuid4Form, t = 'x' ∨ t = 'y' ∨ (t ≠ 'x' ∧ t ≠ 'y' ∧ t ∈ '-' :: hexDigits) :=
    List.all_iff_forall_prop.mp (by decide)
  rcases key t ht with rfl | rfl | ⟨hx, hy, hmem⟩
  · have : c ∈ hexDigits := by simpa [fitsUuid4] using h
    exact List.mem_cons_of_mem _ this
  · have hsub : ∀ d ∈ ['8', '9', 'a', 'b'], d ∈ '-' :: hexDigits := List.all_iff_forall_prop.mp (by decide)
    exact hsub c (by simpa [fitsUuid4] using h)
  · unfold fitsUuid4 at h
    split at h
    · exact absurd rfl hx
    · exact absurd rfl hy
    · exact (of_decide_eq_true h) ▸ hmem

namespace Uuid4

theorem eq_of_str {a b : Uuid4} (h : a.str = b.str) : a = b := by
  cases a
  cases b
  simp_all

theorem length (u : Uuid4) : u.str.toList.length = 36 := by
  have := u.ok
  simp only [isUuid4, Bool.and_eq_true, decide_eq_true_eq] at this
  exact this.1

theorem chars (u : Uuid4) : ∀ c ∈ u.str.toList, c ∈ '-' :: hexDigits := by
  have h := u.ok
  simp only [isUuid4, Bool.and_eq_true, List.all_eq_true] at h
  intro c hc
  obtain ⟨i, hi, rfl⟩ := List.getElem_of_mem hc
  have hlen : uuid4Form.length = 36 := by decide
  have hi' : i < uuid4Form.length := by rw [hlen, ← u.length]; exact hi
  refine fitsUuid4_char (List.getElem_mem hi') (h.2 (uuid4Form[i], u.str.toList[i]) ?_)
  have hz : i < (uuid4Form.zip u.str.toList).length := by
    rw [List.length_zip]
    omega
  have := List.getElem_mem hz
  rwa [List.getElem_zip] at this

/-- An identifier is the name of a directory. -/
theorem isName (u : Uuid4) : IsName u.str := by
  have hlen := u.length
  refine ⟨?_, ?_, ?_, ?_, ?_⟩
  · rintro h
    simp [h] at hlen
  · intro h
    rw [h] at hlen
    exact absurd hlen (by decide)
  · intro h
    rw [h] at hlen
    exact absurd hlen (by decide)
  · intro h
    exact absurd (u.chars _ h) (by decide)
  · intro h
    exact absurd (u.chars _ h) (by decide)

end Uuid4

/-- The least identifier. -/
def sampleId : Uuid4 := ⟨"00000000-0000-4000-8000-000000000000", by decide⟩

end Backend
