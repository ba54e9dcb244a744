import Mathlib.Data.List.DropRight
import StshProtocol.Foundation.Utf16

/-! Strings as the wallet's language has them. -/
namespace StshProtocol.Wallet
open Foundation

/-- A string of the wallet, by its code units. -/
abbrev JsString : Type := List UInt16

/-- A text of the wallet's own, as it stands in its source. -/
def literal (s : String) : JsString := Utf16.ofText s.toList

/-- `toString(10)`. -/
def decimal (n : Int) : JsString := literal (toString n)

/-- `toString(16).padStart(2, "0")`. -/
def hexByte (b : UInt8) : JsString :=
  let digits := Nat.toDigits 16 b.toNat
  Utf16.ofText (List.replicate (2 - digits.length) '0' ++ digits)

def bytesToHex (bytes : List UInt8) : JsString := bytes.flatMap hexByte

/-! ### Hexadecimal digits -/

def hexDigit (n : Nat) : List UInt16 := Utf16.units n.digitChar

theorem hexByte_eq (b : UInt8) : hexByte b = hexDigit (b.toNat / 16) ++ hexDigit (b.toNat % 16) := by
  have hall : ∀ n < 256, Utf16.ofText (List.replicate (2 - (Nat.toDigits 16 n).length) '0' ++
      Nat.toDigits 16 n) = hexDigit (n / 16) ++ hexDigit (n % 16) := by decide +kernel
  exact hall b.toNat b.toNat_lt

theorem hexDigit_length {n : Nat} (h : n < 16) : (hexDigit n).length = 1 := by
  revert n
  decide +kernel

theorem hexDigit_inj {m n : Nat} (hm : m < 16) (hn : n < 16) (h : hexDigit m = hexDigit n) : m = n := by
  have hall : ∀ m < 16, ∀ n < 16, hexDigit m = hexDigit n → m = n := by decide +kernel
  exact hall m hm n hn h

theorem hexByte_length (b : UInt8) : (hexByte b).length = 2 := by
  have hb := b.toNat_lt
  rw [hexByte_eq, List.length_append, hexDigit_length (by omega), hexDigit_length (by omega)]

theorem hexByte_inj {a b : UInt8} (h : hexByte a = hexByte b) : a = b := by
  have ha := a.toNat_lt
  have hb := b.toNat_lt
  have hlength : (hexDigit (a.toNat / 16)).length = (hexDigit (b.toNat / 16)).length := by
    rw [hexDigit_length (by omega), hexDigit_length (by omega)]
  rw [hexByte_eq, hexByte_eq] at h
  obtain ⟨hhigh, hlow⟩ := List.append_inj h hlength
  have hhigh := hexDigit_inj (by omega) (by omega) hhigh
  have hlow := hexDigit_inj (by omega) (by omega) hlow
  exact UInt8.toNat_inj.1 (by omega)

theorem bytesToHex_length (bytes : List UInt8) : (bytesToHex bytes).length = 2 * bytes.length := by
  induction bytes with
  | nil => rfl
  | cons b bytes ih =>
    rw [bytesToHex, List.flatMap_cons, List.length_append, hexByte_length, List.length_cons]
    rw [bytesToHex] at ih
    omega

/-- Bytes are read back from their digits. -/
theorem bytesToHex_inj {bs cs : List UInt8} (h : bytesToHex bs = bytesToHex cs) : bs = cs := by
  have hlength := congrArg List.length h
  rw [bytesToHex_length, bytesToHex_length] at hlength
  induction bs generalizing cs with
  | nil => exact (List.eq_nil_of_length_eq_zero (by rw [List.length_nil] at hlength; omega)).symm
  | cons b bs ih =>
    cases cs with
    | nil =>
      rw [List.length_nil, List.length_cons] at hlength
      omega
    | cons c cs =>
      obtain ⟨hhead, htail⟩ := List.append_inj h ((hexByte_length b).trans (hexByte_length c).symm)
      rw [hexByte_inj hhead, ih htail (by rw [List.length_cons, List.length_cons] at hlength; omega)]

/-! ### Decimal digits -/

/-- `\d`. -/
def isDigit (c : UInt16) : Bool := 48 ≤ c.toNat && c.toNat ≤ 57

/-- `BigInt` of a string of digits. -/
def numeral (digits : JsString) : Nat := digits.foldl (fun n c => 10 * n + (c.toNat - 48)) 0

theorem isDigit_iff {c : UInt16} : isDigit c ↔ 48 ≤ c.toNat ∧ c.toNat ≤ 57 := by
  rw [isDigit, Bool.and_eq_true, decide_eq_true_eq, decide_eq_true_eq]

theorem numeral_from (n : Nat) (digits : JsString) :
    digits.foldl (fun n c => 10 * n + (c.toNat - 48)) n = n * 10 ^ digits.length + numeral digits := by
  induction digits generalizing n with
  | nil => rw [List.foldl_nil, List.length_nil, Nat.pow_zero, Nat.mul_one]; rfl
  | cons c digits ih =>
    have hcons : numeral (c :: digits) = (c.toNat - 48) * 10 ^ digits.length + numeral digits := by
      rw [numeral, List.foldl_cons, ih, Nat.mul_zero, Nat.zero_add]
    rw [List.foldl_cons, ih, hcons, List.length_cons, Nat.pow_succ, Nat.add_mul, Nat.add_assoc,
      Nat.mul_comm (10 ^ digits.length) 10, ← Nat.mul_assoc, Nat.mul_comm n 10]

theorem numeral_append (a b : JsString) : numeral (a ++ b) = numeral a * 10 ^ b.length + numeral b := by
  rw [numeral, List.foldl_append]
  exact numeral_from _ b

theorem numeral_zeros (n : Nat) : numeral (List.replicate n 48) = 0 := by
  induction n with
  | zero => rfl
  | succ n ih =>
    rw [List.replicate_succ', numeral_append, ih, Nat.zero_mul, Nat.zero_add]
    rfl

theorem digit_units {c : Char} (h : c.isDigit) :
    Utf16.units c = [UInt16.ofNat c.toNat] ∧ (UInt16.ofNat c.toNat).toNat = c.toNat ∧
      isDigit (UInt16.ofNat c.toNat) := by
  have hle : 48 ≤ c.toNat ∧ c.toNat ≤ 57 := Char.isDigit_iff_toNat.1 h
  have hval : (UInt16.ofNat c.toNat).toNat = c.toNat := by
    rw [UInt16.toNat_ofNat']
    omega
  refine ⟨if_pos (by omega), hval, isDigit_iff.2 ?_⟩
  rw [hval]
  exact hle

theorem numeral_ofText (cs : List Char) (h : ∀ c ∈ cs, c.isDigit) :
    (∀ c ∈ Utf16.ofText cs, isDigit c) ∧ (Utf16.ofText cs).length = cs.length ∧
      ∀ n, (Utf16.ofText cs).foldl (fun n c => 10 * n + (c.toNat - 48)) n = Nat.ofDigitChars 10 cs n := by
  induction cs with
  | nil => exact ⟨(fun c hc => nomatch hc), rfl, fun n => (Nat.ofDigitChars_nil).symm⟩
  | cons c cs ih =>
    obtain ⟨hunits, hval, hdigit⟩ := digit_units (h c List.mem_cons_self)
    obtain ⟨hdigits, hlength, hfold⟩ := ih fun d hd => h d (List.mem_cons_of_mem c hd)
    rw [Utf16.ofText, List.flatMap_cons, hunits]
    refine ⟨List.forall_mem_cons.2 ⟨hdigit, hdigits⟩, congrArg (· + 1) hlength, fun n => ?_⟩
    rw [List.cons_append, List.nil_append, List.foldl_cons, hval, Nat.ofDigitChars_cons]
    exact hfold _

theorem decimal_nat (n : Nat) : decimal n = Utf16.ofText (Nat.toDigits 10 n) := by
  show Utf16.ofText (Nat.repr n).toList = _
  rw [Nat.toList_repr]

theorem decimal_digits (n : Nat) : ∀ c ∈ decimal n, isDigit c := by
  rw [decimal_nat]
  exact (numeral_ofText _ fun _ => Nat.isDigit_of_mem_toDigits (by decide) (by decide)).1

/-- The decimal of a number is read as the number. -/
theorem numeral_decimal (n : Nat) : numeral (decimal n) = n := by
  rw [decimal_nat, numeral,
    (numeral_ofText _ fun _ => Nat.isDigit_of_mem_toDigits (by decide) (by decide)).2.2,
    Nat.ofDigitChars_ten_toDigits]

theorem decimal_length (n : Nat) : (decimal n).length = (Nat.toDigits 10 n).length := by
  rw [decimal_nat,
    (numeral_ofText _ fun _ => Nat.isDigit_of_mem_toDigits (by decide) (by decide)).2.1]

theorem decimal_ne_nil (n : Nat) : decimal n ≠ [] := by
  refine List.ne_nil_of_length_pos ?_
  rw [decimal_length]
  exact List.length_pos_of_ne_nil Nat.toDigits_ne_nil

/-! ### Trimming -/

/-- The characters `trim` takes off. -/
def isSpace (c : UInt16) : Bool :=
  (9 ≤ c.toNat && c.toNat ≤ 13) || (0x2000 ≤ c.toNat && c.toNat ≤ 0x200A) ||
    [0x20, 0xA0, 0x1680, 0x2028, 0x2029, 0x202F, 0x205F, 0x3000, 0xFEFF].contains c.toNat

def trim (s : JsString) : JsString := (s.dropWhile isSpace).rdropWhile isSpace

theorem digit_not_space {c : UInt16} (h : isDigit c) : isSpace c = false := by
  obtain ⟨hlow, hhigh⟩ := isDigit_iff.1 h
  have hall : ∀ n < 10, isSpace (UInt16.ofNat (48 + n)) = false := by decide
  have hc : c = UInt16.ofNat (48 + (c.toNat - 48)) :=
    UInt16.toNat_inj.1 (by rw [UInt16.toNat_ofNat']; omega)
  rw [hc]
  exact hall _ (by omega)

/-- There is nothing to take off a text without white space. -/
theorem trim_self {s : JsString} (h : ∀ c ∈ s, isSpace c = false) : trim s = s := by
  have hleft : s.dropWhile isSpace = s := by
    refine List.dropWhile_eq_self_iff.2 fun hpos => ?_
    rw [h _ (List.getElem_mem hpos)]
    exact Bool.false_ne_true
  rw [trim, hleft, List.rdropWhile_eq_self_iff]
  intro hne
  rw [h _ (List.getLast_mem hne)]
  exact Bool.false_ne_true

/-! ### Reading numbers -/

/-- The value of a hexadecimal digit. -/
def hexValue (c : UInt16) : Option Nat :=
  if isDigit c then some (c.toNat - 48)
  else if 97 ≤ c.toNat ∧ c.toNat ≤ 102 then some (c.toNat - 87)
  else if 65 ≤ c.toNat ∧ c.toNat ≤ 70 then some (c.toNat - 55)
  else none

/-- The digits of a number of this radix, unless there are others. -/
def radixValue (radix : Nat) (digits : JsString) : Option Nat :=
  if digits = [] then none
  else digits.foldlM (fun n c => (hexValue c).bind fun d =>
    if d < radix then some (radix * n + d) else none) 0

/-- The text behind a sign, and whether it is negative. -/
def signed (s : JsString) : Bool × JsString :=
  if s.head? = some 45 then (true, s.tail)
  else if s.head? = some 43 then (false, s.tail)
  else (false, s)

/-- The text begins with a zero and this letter, in either case. -/
def hasPrefix (letter : UInt16) (s : JsString) : Bool :=
  s.take 2 == [48, letter] || s.take 2 == [48, letter - 32]

/-- `parseInt(s, 16)`: the digits it begins with, behind white space, a sign and `0x`. -/
def parseHex (s : JsString) : Option Int :=
  let (negative, rest) := signed (s.dropWhile isSpace)
  let rest := if hasPrefix 120 rest then rest.drop 2 else rest
  (radixValue 16 (rest.takeWhile fun c => (hexValue c).isSome)).map fun n =>
    if negative then -(n : Int) else n

/-- What an array of bytes makes of a number; of none it makes zero. -/
def toUint8 (n : Option Int) : UInt8 := UInt8.ofNat ((n.getD 0) % 256).toNat

/-- The bytes of pairs of digits; a last digit by itself is left out. -/
def unhex : JsString → List UInt8
  | a :: b :: rest => toUint8 (parseHex [a, b]) :: unhex rest
  | _ => []

/-- `BigInt(s)`: a signed decimal number, or digits of another radix behind its prefix; white space
around it is taken off, and nothing is zero. -/
def bigInt (s : JsString) : Option Int :=
  let s := trim s
  if s = [] then some 0
  else if hasPrefix 120 s then (radixValue 16 (s.drop 2)).map Int.ofNat
  else if hasPrefix 111 s then (radixValue 8 (s.drop 2)).map Int.ofNat
  else if hasPrefix 98 s then (radixValue 2 (s.drop 2)).map Int.ofNat
  else
    let (negative, digits) := signed s
    if digits ≠ [] ∧ digits.all isDigit then
      some (if negative then -(numeral digits : Int) else numeral digits)
    else none

theorem unhex_hexByte (b : UInt8) (rest : JsString) : unhex (hexByte b ++ rest) = b :: unhex rest := by
  have hall : ∀ n < 256, toUint8 (parseHex (hexByte (UInt8.ofNat n))) = UInt8.ofNat n := by
    decide +kernel
  obtain ⟨x, y, hxy⟩ := List.length_eq_two.1 (hexByte_length b)
  have hb := hall b.toNat b.toNat_lt
  rw [UInt8.ofNat_toNat, hxy] at hb
  rw [hxy]
  show toUint8 (parseHex [x, y]) :: unhex rest = _
  rw [hb]

/-- Bytes are read back from their digits. -/
theorem unhex_bytesToHex (bs : List UInt8) : unhex (bytesToHex bs) = bs := by
  induction bs with
  | nil => rfl
  | cons b bs ih =>
    rw [bytesToHex, List.flatMap_cons, unhex_hexByte]
    exact congrArg _ ih

theorem hasPrefix_digits {l : UInt16} {s : JsString} (h : ∀ c ∈ s, isDigit c)
    (hletter : isDigit l = false ∧ isDigit (l - 32) = false) : hasPrefix l s = false := by
  have hnot : ∀ c, isDigit c = false → (s.take 2 == [48, c]) = false := by
    intro c hc
    rw [beq_eq_false_iff_ne]
    intro heq
    have hmem : c ∈ s := List.mem_of_mem_take (i := 2) (by rw [heq]; simp)
    rw [h c hmem] at hc
    exact nomatch hc
  rw [hasPrefix, hnot _ hletter.1, hnot _ hletter.2]
  rfl

theorem signed_digits {s : JsString} (h : ∀ c ∈ s, isDigit c) : signed s = (false, s) := by
  have hnot : ∀ l, isDigit l = false → s.head? ≠ some l := by
    intro l hl heq
    rw [h l (List.mem_of_head? heq)] at hl
    exact nomatch hl
  rw [signed, if_neg (hnot 45 (by decide)), if_neg (hnot 43 (by decide))]

theorem decimal_neg (n : Nat) : decimal (Int.negSucc n) = 45 :: decimal ((n + 1 : Nat) : Int) := by
  show Utf16.ofText ("-" ++ Nat.repr (n + 1)).toList = _
  rw [String.toList_append, Utf16.ofText, List.flatMap_append]
  rfl

/-- A number is read back from its decimal. -/
theorem bigInt_decimal (n : Int) : bigInt (decimal n) = some n := by
  cases n with
  | ofNat n =>
    have hdigits := decimal_digits n
    have htrim : trim (decimal n) = decimal n := trim_self fun c hc => digit_not_space (hdigits c hc)
    show bigInt (decimal (n : Int)) = some (n : Int)
    rw [bigInt, htrim]
    simp only [if_neg (decimal_ne_nil n), hasPrefix_digits hdigits (l := 120) (by decide),
      hasPrefix_digits hdigits (l := 111) (by decide),
      hasPrefix_digits hdigits (l := 98) (by decide), signed_digits hdigits, numeral_decimal]
    rw [if_neg Bool.false_ne_true, if_neg Bool.false_ne_true, if_neg Bool.false_ne_true,
      if_pos ⟨decimal_ne_nil n, List.all_eq_true.2 hdigits⟩]
    rfl
  | negSucc n =>
    have hdigits := decimal_digits (n + 1)
    have htrim : trim (decimal (Int.negSucc n)) = decimal (Int.negSucc n) := by
      refine trim_self fun c hc => ?_
      rw [decimal_neg] at hc
      rcases List.mem_cons.1 hc with rfl | hc
      · decide
      · exact digit_not_space (hdigits c hc)
    have hnot : ∀ letter, hasPrefix letter (decimal (Int.negSucc n)) = false := by
      intro letter
      rw [decimal_neg, hasPrefix]
      simp
    rw [bigInt, htrim]
    simp only [hnot]
    rw [decimal_neg, if_neg (List.cons_ne_nil _ _), if_neg Bool.false_ne_true,
      if_neg Bool.false_ne_true, if_neg Bool.false_ne_true]
    show (if decimal ((n + 1 : Nat) : Int) ≠ [] ∧ (decimal ((n + 1 : Nat) : Int)).all isDigit then
      some (-(numeral (decimal ((n + 1 : Nat) : Int)) : Int)) else none) = _
    rw [if_pos ⟨decimal_ne_nil _, List.all_eq_true.2 hdigits⟩, numeral_decimal]
    rfl

end StshProtocol.Wallet
