import Mathlib.Algebra.Order.Ring.Int
import Mathlib.Tactic.Common

/-! Text as UTF-16 code units.

A string of code units stands for a text: a pair of surrogates is one character, a surrogate by
itself is read as the replacement character. A text written in code units is read back as it was
(`scalars_ofText`). -/
namespace StshProtocol.Foundation.Utf16

def replacement : Char := '\uFFFD'

def IsHigh (u : UInt16) : Prop := 0xD800 ≤ u.toNat ∧ u.toNat < 0xDC00

def IsLow (u : UInt16) : Prop := 0xDC00 ≤ u.toNat ∧ u.toNat < 0xE000

instance (u : UInt16) : Decidable (IsHigh u) := inferInstanceAs (Decidable (_ ∧ _))

instance (u : UInt16) : Decidable (IsLow u) := inferInstanceAs (Decidable (_ ∧ _))

/-- The character of a code unit by itself. -/
def single (u : UInt16) : Char := if IsHigh u ∨ IsLow u then replacement else Char.ofNat u.toNat

/-- The character of a pair of surrogates. -/
def pair (u v : UInt16) : Char :=
  Char.ofNat (0x10000 + (u.toNat - 0xD800) * 0x400 + (v.toNat - 0xDC00))

/-- The text a string of code units stands for. -/
def scalars : List UInt16 → List Char
  | [] => []
  | [u] => [single u]
  | u :: v :: rest =>
    if IsHigh u ∧ IsLow v then pair u v :: scalars rest else single u :: scalars (v :: rest)

/-- The code units of a character. -/
def units (c : Char) : List UInt16 :=
  if c.toNat < 0x10000 then [UInt16.ofNat c.toNat]
  else [UInt16.ofNat (0xD800 + (c.toNat - 0x10000) / 0x400),
    UInt16.ofNat (0xDC00 + (c.toNat - 0x10000) % 0x400)]

def ofText (s : List Char) : List UInt16 := s.flatMap units

theorem single_of_small {c : Char} (h : c.toNat < 0x10000) :
    single (UInt16.ofNat c.toNat) = c ∧ ¬IsHigh (UInt16.ofNat c.toNat) := by
  have hn : (UInt16.ofNat c.toNat).toNat = c.toNat := by
    rw [UInt16.toNat_ofNat']
    exact Nat.mod_eq_of_lt h
  have hvalid : ¬(0xD800 ≤ c.toNat ∧ c.toNat < 0xE000) := by
    intro hsurrogate
    rcases c.valid with hlow | hhigh
    · have : c.toNat < 0xD800 := hlow
      omega
    · have : 0xDFFF < c.toNat := hhigh.1
      omega
  have hhigh : ¬IsHigh (UInt16.ofNat c.toNat) := by
    unfold IsHigh
    omega
  have hlow : ¬IsLow (UInt16.ofNat c.toNat) := by
    unfold IsLow
    omega
  refine ⟨?_, hhigh⟩
  rw [single, if_neg (not_or.2 ⟨hhigh, hlow⟩), hn, Char.ofNat_toNat]

theorem pair_of_large {c : Char} (h : ¬c.toNat < 0x10000) :
    IsHigh (UInt16.ofNat (0xD800 + (c.toNat - 0x10000) / 0x400)) ∧
      IsLow (UInt16.ofNat (0xDC00 + (c.toNat - 0x10000) % 0x400)) ∧
      pair (UInt16.ofNat (0xD800 + (c.toNat - 0x10000) / 0x400))
        (UInt16.ofNat (0xDC00 + (c.toNat - 0x10000) % 0x400)) = c := by
  have hmax : c.toNat < 0x110000 := by
    rcases c.valid with hlow | hhigh
    · have : c.toNat < 0xD800 := hlow
      omega
    · exact hhigh.2
  have hhigh : (UInt16.ofNat (0xD800 + (c.toNat - 0x10000) / 0x400)).toNat =
      0xD800 + (c.toNat - 0x10000) / 0x400 := by
    rw [UInt16.toNat_ofNat']
    exact Nat.mod_eq_of_lt (by omega)
  have hlow : (UInt16.ofNat (0xDC00 + (c.toNat - 0x10000) % 0x400)).toNat =
      0xDC00 + (c.toNat - 0x10000) % 0x400 := by
    rw [UInt16.toNat_ofNat']
    exact Nat.mod_eq_of_lt (by omega)
  unfold IsHigh IsLow pair
  rw [hhigh, hlow]
  refine ⟨by omega, by omega, ?_⟩
  have hsum : 0x10000 + (0xD800 + (c.toNat - 0x10000) / 0x400 - 0xD800) * 0x400 +
      (0xDC00 + (c.toNat - 0x10000) % 0x400 - 0xDC00) = c.toNat := by omega
  rw [hsum, Char.ofNat_toNat]

/-- A text is read back as it was written. -/
theorem scalars_ofText (s : List Char) : scalars (ofText s) = s := by
  induction s with
  | nil => rfl
  | cons c s ih =>
    rw [ofText, List.flatMap_cons, units]
    by_cases h : c.toNat < 0x10000
    · obtain ⟨hsingle, hnot⟩ := single_of_small h
      rw [if_pos h, List.singleton_append]
      cases hrest : s.flatMap units with
      | nil =>
        rw [ofText, hrest] at ih
        rw [scalars, hsingle, ← ih, scalars]
      | cons v rest =>
        rw [ofText, hrest] at ih
        rw [scalars, if_neg fun hand => hnot hand.1, hsingle, ih]
    · obtain ⟨hhigh, hlow, hpair⟩ := pair_of_large h
      rw [if_neg h, List.cons_append, List.singleton_append, scalars, if_pos ⟨hhigh, hlow⟩, hpair]
      exact congrArg _ ih

/-- `TextEncoder`: the text, in UTF-8. -/
def utf8 (s : List UInt16) : List UInt8 := (scalars s).flatMap String.utf8EncodeChar

theorem utf8_ofText (s : String) : utf8 (ofText s.toList) = s.toUTF8.data.toList := by
  rw [utf8, scalars_ofText, String.toUTF8_eq_toByteArray, ← String.utf8Encode_toList,
    List.utf8Encode, List.data_toByteArray]

/-- Two strings of code units with the same bytes stand for the same text. -/
theorem scalars_of_utf8 {s t : List UInt16} (h : utf8 s = utf8 t) : scalars s = scalars t := by
  have hbytes : (scalars s).utf8Encode = (scalars t).utf8Encode := by
    rw [List.utf8Encode, List.utf8Encode]
    exact congrArg List.toByteArray h
  have htext : String.ofList (scalars s) = String.ofList (scalars t) :=
    String.toByteArray_inj.1 hbytes
  rw [← String.toList_ofList (l := scalars s), htext, String.toList_ofList]

/-- A string of code units in which every surrogate has its other half. -/
def WellFormed (s : List UInt16) : Prop := ofText (scalars s) = s

end StshProtocol.Foundation.Utf16
