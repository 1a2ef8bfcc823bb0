import Mathlib.Data.List.TakeWhile
import Mathlib.Tactic.Common

/-!
# Percent-encoded locations

Writing bytes into a location so that the reserved ones are escaped, and reading a location back: the query is cut off at
the first question mark, and every escape becomes its byte.
-/

namespace Lib

/-- The bytes of a text in UTF-8. -/
def utf8 (cs : List Char) : List UInt8 := cs.flatMap String.utf8EncodeChar

@[simp] theorem utf8_nil : utf8 [] = [] := rfl

@[simp] theorem utf8_cons (c : Char) (cs : List Char) : utf8 (c :: cs) = String.utf8EncodeChar c ++ utf8 cs :=
  List.flatMap_cons

@[simp] theorem utf8_append (cs ds : List Char) : utf8 (cs ++ ds) = utf8 cs ++ utf8 ds := List.flatMap_append

theorem utf8_injective {cs ds : List Char} (h : utf8 cs = utf8 ds) : cs = ds := by
  have hencode : List.utf8Encode cs = List.utf8Encode ds := congrArg List.toByteArray h
  have htext : String.ofList cs = String.ofList ds := by
    rw [← String.toByteArray_inj, String.toByteArray_ofList, String.toByteArray_ofList, hencode]
  exact String.ofList_injective htext

/-- A byte below 128 is the encoding of its character, and is found in no other encoding. -/
theorem ascii_mem_utf8EncodeChar {c : Char} {b : UInt8} (hb : b.toNat < 128) :
    b ∈ String.utf8EncodeChar c ↔ c.toNat = b.toNat := by
  have hmod (n : Nat) (h : n < 256) : (UInt8.ofNat n).toNat = n := by simp [Nat.mod_eq_of_lt h]
  have hne (n : Nat) (h : 128 ≤ n) (h' : n < 256) : b ≠ UInt8.ofNat n := by
    rintro rfl
    rw [hmod n h'] at hb
    omega
  have hval : c.val.toNat = c.toNat := rfl
  unfold String.utf8EncodeChar
  dsimp only
  rw [hval]
  split
  · rename_i h
    rw [List.mem_singleton, ← UInt8.toNat_inj, hmod _ (by omega)]
    exact eq_comm
  · rename_i h
    refine iff_of_false (fun hmem => ?_) (by omega)
    split at hmem
    · simp only [List.mem_cons, List.not_mem_nil, or_false] at hmem
      rcases hmem with hmem | hmem <;> exact hne _ (by omega) (by omega) hmem
    · split at hmem
      · simp only [List.mem_cons, List.not_mem_nil, or_false] at hmem
        rcases hmem with hmem | hmem | hmem <;> exact hne _ (by omega) (by omega) hmem
      · simp only [List.mem_cons, List.not_mem_nil, or_false] at hmem
        rcases hmem with hmem | hmem | hmem | hmem <;> exact hne _ (by omega) (by omega) hmem

theorem ascii_mem_utf8 {cs : List Char} {c : Char} (hc : c.toNat < 128) : UInt8.ofNat c.toNat ∈ utf8 cs ↔ c ∈ cs := by
  have hbyte : (UInt8.ofNat c.toNat).toNat = c.toNat := by simp [Nat.mod_eq_of_lt (show c.toNat < 256 by omega)]
  simp only [utf8, List.mem_flatMap, ascii_mem_utf8EncodeChar (hbyte ▸ hc), hbyte]
  constructor
  · rintro ⟨d, hd, heq⟩
    exact Char.toNat_inj.mp heq ▸ hd
  · exact fun h => ⟨c, h, rfl⟩

/-! ## Writing -/

def hexDigit (n : Nat) : Char := Char.ofNat (if n < 10 then 0x30 + n else 0x37 + n)

/-- Letters, digits and `_.-~/`. -/
def isUnreserved (b : UInt8) : Bool :=
  (0x41 ≤ b && b ≤ 0x5A) || (0x61 ≤ b && b ≤ 0x7A) || (0x30 ≤ b && b ≤ 0x39) ||
    b == 0x5F || b == 0x2E || b == 0x2D || b == 0x7E || b == 0x2F

def quoteByte (b : UInt8) : List Char :=
  if isUnreserved b then [Char.ofNat b.toNat] else ['%', hexDigit (b.toNat / 16), hexDigit (b.toNat % 16)]

/-- The text with all but unreserved bytes escaped. -/
def quote (cs : List Char) : List Char := (utf8 cs).flatMap quoteByte

/-! ## Reading -/

def hexValue (b : UInt8) : Option UInt8 :=
  if 0x30 ≤ b ∧ b ≤ 0x39 then some (b - 0x30)
  else if 0x41 ≤ b ∧ b ≤ 0x46 then some (b - 0x37)
  else if 0x61 ≤ b ∧ b ≤ 0x66 then some (b - 0x57)
  else none

/-- Replace every escape by its byte. Of what is no escape the percent sign is dropped, and digits after it. -/
def percentDecode : List UInt8 → List UInt8
  | [] => []
  | b :: bs =>
      if b ≠ 0x25 then b :: percentDecode bs
      else
        match bs with
        | [] => []
        | h :: bs =>
            match hexValue h with
            | none => h :: percentDecode bs
            | some hi =>
                match bs with
                | [] => []
                | l :: bs =>
                    match hexValue l with
                    | none => percentDecode bs
                    | some lo => (hi * 16 + lo) :: percentDecode bs

/-- The path of a location: without the query, and decoded. -/
def decodedPath (location : List UInt8) : List UInt8 := percentDecode (location.takeWhile (· ≠ 0x3F))

theorem percentDecode_cons_ne {b : UInt8} (h : b ≠ 0x25) (bs : List UInt8) :
    percentDecode (b :: bs) = b :: percentDecode bs := by
  rw [percentDecode.eq_def]
  exact if_pos h

theorem percentDecode_escape {h l hi lo : UInt8} (hhi : hexValue h = some hi) (hlo : hexValue l = some lo)
    (bs : List UInt8) : percentDecode (0x25 :: h :: l :: bs) = (hi * 16 + lo) :: percentDecode bs := by
  rw [percentDecode.eq_def]
  simp only [ne_eq, not_true_eq_false, if_false, hhi, hlo]

/-- An escape is longer than what it stands for. -/
theorem length_percentDecode (bs : List UInt8) :
    (percentDecode bs).length + (if 0x25 ∈ bs then 1 else 0) ≤ bs.length := by
  have hone (bs : List UInt8) : (if 0x25 ∈ bs then 1 else 0) ≤ 1 := by split <;> simp
  fun_induction percentDecode bs with
  | case1 => simp
  | case2 b bs hb ih =>
      have hmem : 0x25 ∈ b :: bs ↔ 0x25 ∈ bs := by simp [Ne.symm hb]
      simp only [hmem, List.length_cons]
      omega
  | case3 b _ => simpa using hone [b]
  | case4 b _ h bs _ ih =>
      have := hone (b :: h :: bs)
      simp only [List.length_cons]
      omega
  | case5 b _ h hi _ =>
      have := hone [b, h]
      simp only [List.length_cons, List.length_nil]
      omega
  | case6 b _ h hi _ l bs _ ih =>
      have := hone (b :: h :: l :: bs)
      simp only [List.length_cons]
      omega
  | case7 b _ h hi _ l bs lo _ ih =>
      have := hone (b :: h :: l :: bs)
      simp only [List.length_cons]
      omega

theorem percentDecode_of_not_mem {bs : List UInt8} (h : 0x25 ∉ bs) : percentDecode bs = bs := by
  induction bs with
  | nil => rfl
  | cons b bs ih =>
      obtain ⟨hb, hbs⟩ : 0x25 ≠ b ∧ 0x25 ∉ bs := by simpa using h
      rw [percentDecode_cons_ne (Ne.symm hb), ih hbs]

/-- A location stands for itself exactly when it has no query and no escape. -/
theorem decodedPath_eq_self (location : List UInt8) : decodedPath location = location ↔ 0x3F ∉ location ∧ 0x25 ∉ location := by
  constructor
  · intro h
    have hdecode := length_percentDecode (location.takeWhile (· ≠ 0x3F))
    have hcut := (List.takeWhile_prefix (l := location) (· ≠ 0x3F)).length_le
    rw [show percentDecode _ = location from h] at hdecode
    have hwhole : location.takeWhile (· ≠ 0x3F) = location :=
      (List.takeWhile_prefix _).eq_of_length (by omega)
    rw [hwhole] at hdecode
    refine ⟨fun hmem => ?_, fun hmem => ?_⟩
    · simpa using List.takeWhile_eq_self_iff.mp hwhole _ hmem
    · rw [if_pos hmem] at hdecode
      omega
  · rintro ⟨hquery, hescape⟩
    have hwhole : location.takeWhile (· ≠ 0x3F) = location :=
      List.takeWhile_eq_self_iff.mpr fun b hb => by simpa using fun h : b = 0x3F => hquery (h ▸ hb)
    rw [decodedPath, hwhole, percentDecode_of_not_mem hescape]

/-! ## Reading back what was written -/

theorem utf8EncodeChar_ascii {c : Char} (hc : c.toNat < 128) : String.utf8EncodeChar c = [UInt8.ofNat c.toNat] := by
  have hval : c.val.toNat = c.toNat := rfl
  unfold String.utf8EncodeChar
  dsimp only
  rw [hval, if_pos (by omega)]

theorem hexDigit_ascii {n : Nat} (h : n < 16) : (hexDigit n).toNat < 128 := by
  have key : ∀ n < 16, (hexDigit n).toNat < 128 := by decide
  exact key n h

/-- An unreserved byte is the code of a printing character. -/
theorem unreserved_bounds {b : UInt8} (h : isUnreserved b = true) : 0x2D ≤ b.toNat ∧ b.toNat < 0x7F ∧ b.toNat ≠ 0x3F := by
  simp only [isUnreserved, Bool.or_eq_true, Bool.and_eq_true, decide_eq_true_eq, beq_iff_eq, UInt8.le_iff_toNat_le,
    ← UInt8.toNat_inj, UInt8.reduceToNat] at h
  omega

theorem toNat_unreserved {b : UInt8} (h : isUnreserved b = true) : (Char.ofNat b.toNat).toNat = b.toNat := by
  obtain ⟨_, hlt, _⟩ := unreserved_bounds h
  have hvalid : b.toNat.isValidChar := .inl (by omega)
  rw [Char.ofNat, dif_pos hvalid]
  rfl

theorem utf8_quoteByte (b : UInt8) : utf8 (quoteByte b) = if isUnreserved b then [b] else
    [0x25, UInt8.ofNat (hexDigit (b.toNat / 16)).toNat, UInt8.ofNat (hexDigit (b.toNat % 16)).toNat] := by
  have hb := b.toNat_lt
  unfold quoteByte
  by_cases hsafe : isUnreserved b = true
  · obtain ⟨_, hlt, _⟩ := unreserved_bounds hsafe
    have hchar := toNat_unreserved hsafe
    rw [if_pos hsafe, if_pos hsafe, utf8_cons, utf8_nil, List.append_nil, utf8EncodeChar_ascii (by omega), hchar,
      UInt8.ofNat_toNat]
  · have hdiv : (hexDigit (b.toNat / 16)).toNat < 128 := hexDigit_ascii (by omega)
    have hmod : (hexDigit (b.toNat % 16)).toNat < 128 := hexDigit_ascii (by omega)
    rw [if_neg hsafe, if_neg hsafe, utf8_cons, utf8_cons, utf8_cons, utf8_nil, List.append_nil,
      utf8EncodeChar_ascii (by decide), utf8EncodeChar_ascii hdiv, utf8EncodeChar_ascii hmod]
    rfl

theorem hexValue_hexDigit (n : Nat) (h : n < 16) : hexValue (UInt8.ofNat (hexDigit n).toNat) = some (UInt8.ofNat n) := by
  have key : ∀ n < 16, hexValue (UInt8.ofNat (hexDigit n).toNat) = some (UInt8.ofNat n) := by decide
  exact key n h

theorem percentDecode_quoteByte (b : UInt8) (bs : List UInt8) :
    percentDecode (utf8 (quoteByte b) ++ bs) = b :: percentDecode bs := by
  have hb := b.toNat_lt
  rw [utf8_quoteByte]
  by_cases hsafe : isUnreserved b = true
  · rw [if_pos hsafe]
    refine percentDecode_cons_ne ?_ bs
    rintro rfl
    exact absurd hsafe (by decide)
  · rw [if_neg hsafe]
    have hdiv : b.toNat / 16 < 16 := by omega
    have hmod : b.toNat % 16 < 16 := by omega
    refine (percentDecode_escape (hexValue_hexDigit _ hdiv) (hexValue_hexDigit _ hmod) bs).trans ?_
    congr 1
    rw [← UInt8.toNat_inj]
    simp
    omega

theorem hexDigit_plain {n : Nat} (h : n < 16) : hexDigit n ∉ [' ', '\n', '?'] := by
  have key : ∀ n < 16, hexDigit n ∉ [' ', '\n', '?'] := by decide
  exact key n h

/-- What quoting writes, with the characters that can be in it. -/
theorem quoteByte_ascii (b : UInt8) : ∀ c ∈ quoteByte b, c ∉ [' ', '\n', '?'] := by
  have hb := b.toNat_lt
  intro c hc
  unfold quoteByte at hc
  by_cases hsafe : isUnreserved b = true
  · obtain ⟨hlow, _, hquery⟩ := unreserved_bounds hsafe
    rw [if_pos hsafe, List.mem_singleton] at hc
    rw [← toNat_unreserved hsafe, ← hc] at hlow hquery
    intro hmem
    simp only [List.mem_cons, List.not_mem_nil, or_false] at hmem
    rcases hmem with rfl | rfl | rfl
    · exact absurd hlow (by decide)
    · exact absurd hlow (by decide)
    · exact hquery rfl
  · rw [if_neg hsafe] at hc
    simp only [List.mem_cons, List.not_mem_nil, or_false] at hc
    rcases hc with rfl | rfl | rfl
    · decide
    · exact hexDigit_plain (by omega)
    · exact hexDigit_plain (by omega)

theorem quote_plain {c : Char} (hc : c ∈ [' ', '\n', '?']) (cs : List Char) : c ∉ quote cs := by
  intro h
  obtain ⟨b, _, hmem⟩ := List.mem_flatMap.mp h
  exact quoteByte_ascii b c hmem hc

theorem quote_append (cs ds : List Char) : quote (cs ++ ds) = quote cs ++ quote ds := by
  rw [quote, utf8_append, List.flatMap_append, quote, quote]

/-- A quoted text is read back. -/
theorem decodedPath_quote (cs : List Char) : decodedPath (utf8 (quote cs)) = utf8 cs := by
  have hmark : UInt8.ofNat '?'.toNat ∉ utf8 (quote cs) := (ascii_mem_utf8 (by decide)).not.mpr (quote_plain (by decide) cs)
  have hquery : 0x3F ∉ utf8 (quote cs) := hmark
  have hwhole : (utf8 (quote cs)).takeWhile (· ≠ 0x3F) = utf8 (quote cs) :=
    List.takeWhile_eq_self_iff.mpr fun b hb => by simpa using fun h : b = 0x3F => hquery (h ▸ hb)
  rw [decodedPath, hwhole]
  clear hmark hquery hwhole
  unfold quote
  induction utf8 cs with
  | nil => rfl
  | cons b bs ih => rw [List.flatMap_cons, utf8_append, percentDecode_quoteByte, ih]

end Lib
