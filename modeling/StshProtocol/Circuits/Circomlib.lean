import Mathlib.Algebra.Order.Ring.Int
import Mathlib.Algebra.BigOperators.Fin
import Mathlib.Data.List.Prime
import Mathlib.NumberTheory.LucasPrimality
import Mathlib.Tactic.LinearCombination
import Mathlib.Tactic.NormNum.PowMod
import Mathlib.Tactic.NormNum.Prime
import Mathlib.Tactic.ReduceModChar

/-! Primality from the prime factors of the number before, by Lucas' criterion. -/
namespace StshProtocol.Foundation

/-- `p` is prime if `a` has order `p - 1`: no power by a prime divisor less is one. -/
theorem prime_of_factors {p : Nat} (a : ZMod p) (factors : List Nat)
    (hprime : ∀ q ∈ factors, q.Prime) (hprod : factors.prod = p - 1) (hone : a ^ (p - 1) = 1)
    (hne : ∀ q ∈ factors, a ^ ((p - 1) / q) ≠ 1) : p.Prime := by
  refine lucas_primality p a hone fun q hq hdvd => ?_
  rw [← hprod, Prime.dvd_prod_iff hq.prime] at hdvd
  obtain ⟨b, hb, hqb⟩ := hdvd
  rw [(Nat.prime_dvd_prime_iff_eq hq (hprime b hb)).1 hqb]
  exact hne b hb

end StshProtocol.Foundation

/-! The field of the circuit's signals, the integers modulo the order of BN254, and the components of
circomlib the spend circuit is built of, by their constraints.

A template is the relation its constraints leave between its signals; what is only assigned, and
not constrained, is not in it. `Num2Bits` leaves one reading where its width is below the field's;
`LessThan` constrains a difference and says nothing of what is subtracted (`lessThan_iff` is for
numbers already known to be small); `Switcher` is linear in its inputs and switches by a bit only. -/
namespace StshProtocol.Circuits
open Foundation

def fieldModulus : Nat :=
  21888242871839275222246405745257275088548364400416034343698204186575808495617

/-! ### The modulus is prime -/

theorem prime_405928799 : Nat.Prime 405928799 := by
  refine prime_of_factors 22 [2, 11, 3691, 4999] ?_ (by norm_num) ?_ ?_
  · simp only [List.forall_mem_cons]; norm_num
  · norm_num; reduce_mod_char
  · simp only [List.forall_mem_cons]; norm_num; reduce_mod_char; decide +kernel

theorem prime_12048837557 : Nat.Prime 12048837557 := by
  refine prime_of_factors 2 [2, 2, 7, 7, 661, 93001] ?_ (by norm_num) ?_ ?_
  · simp only [List.forall_mem_cons]; norm_num
  · norm_num; reduce_mod_char
  · simp only [List.forall_mem_cons]; norm_num; reduce_mod_char; decide +kernel

theorem prime_5156902474397 : Nat.Prime 5156902474397 := by
  refine prime_of_factors 2 [2, 2, 107, 12048837557] ?_ (by norm_num) ?_ ?_
  · simp only [List.forall_mem_cons, prime_12048837557]; norm_num
  · norm_num; reduce_mod_char
  · simp only [List.forall_mem_cons]; norm_num; reduce_mod_char; decide +kernel

theorem prime_1670836401704629 : Nat.Prime 1670836401704629 := by
  refine prime_of_factors 2 [2, 2, 3, 3, 3, 3, 5156902474397] ?_ (by norm_num) ?_ ?_
  · simp only [List.forall_mem_cons, prime_5156902474397]; norm_num
  · norm_num; reduce_mod_char
  · simp only [List.forall_mem_cons]; norm_num; reduce_mod_char; decide +kernel

theorem prime_639533339 : Nat.Prime 639533339 := by
  refine prime_of_factors 2 [2, 229, 853, 1637] ?_ (by norm_num) ?_ ?_
  · simp only [List.forall_mem_cons]; norm_num
  · norm_num; reduce_mod_char
  · simp only [List.forall_mem_cons]; norm_num; reduce_mod_char; decide +kernel

theorem prime_65865678001877903 : Nat.Prime 65865678001877903 := by
  refine prime_of_factors 5 [2, 83, 379, 1637, 639533339] ?_ (by norm_num) ?_ ?_
  · simp only [List.forall_mem_cons, prime_639533339]; norm_num
  · norm_num; reduce_mod_char
  · simp only [List.forall_mem_cons]; norm_num; reduce_mod_char; decide +kernel

theorem prime_13818364434197438864469338081 : Nat.Prime 13818364434197438864469338081 := by
  refine prime_of_factors 3 [2, 2, 2, 2, 2, 5, 823, 1593227, 65865678001877903] ?_ (by norm_num) ?_ ?_
  · simp only [List.forall_mem_cons, prime_65865678001877903]; norm_num
  · norm_num; reduce_mod_char
  · simp only [List.forall_mem_cons]; norm_num; reduce_mod_char; decide +kernel

/-- The order of BN254 less one has a large power of two, by design, and a few odd primes. -/
theorem prime_fieldModulus : Nat.Prime fieldModulus := by
  rw [fieldModulus]
  refine prime_of_factors 5 (List.replicate 28 2 ++ [3, 3, 13, 29, 983, 11003, 237073, 405928799,
    1670836401704629, 13818364434197438864469338081]) ?_ (by decide +kernel) ?_ ?_
  · simp only [List.forall_mem_append, List.forall_mem_replicate, List.forall_mem_cons,
      prime_405928799, prime_1670836401704629, prime_13818364434197438864469338081]
    norm_num
  · norm_num; reduce_mod_char
  · simp only [List.forall_mem_append, List.forall_mem_replicate, List.forall_mem_cons]
    norm_num; reduce_mod_char; decide +kernel

instance : Fact fieldModulus.Prime := ⟨prime_fieldModulus⟩

abbrev Fr := ZMod fieldModulus

instance atLeastTwo_two : Nat.AtLeastTwo 2 := inferInstance

/-! ### Small numbers as elements -/

theorem two_pow_lt_modulus : 2 ^ 64 < fieldModulus := by decide

/-- Numbers below the modulus are told apart by their residues. -/
theorem cast_inj_of_lt {a b : Nat} (ha : a < fieldModulus) (hb : b < fieldModulus)
    (h : (a : Fr) = b) : a = b := by
  rw [← ZMod.val_natCast_of_lt ha, ← ZMod.val_natCast_of_lt hb, h]

/-- What a boolean constraint leaves. -/
theorem zero_or_one {b : Fr} (h : b * (1 - b) = 0) : b = 0 ∨ b = 1 := by
  rcases mul_eq_zero.1 h with h | h
  · exact .inl h
  · exact .inr (sub_eq_zero.1 h).symm

/-! ### The components -/

structure Num2Bits (n : Nat) (input : Fr) (out : Fin n → Fr) : Prop where
  bits : ∀ i, out i * (out i - 1) = 0
  sum : ∑ i, out i * 2 ^ (i : Nat) = input

def LessThan (n : Nat) (a b out : Fr) : Prop :=
  ∃ bits : Fin (n + 1) → Fr, Num2Bits (n + 1) (a + 2 ^ n - b) bits ∧ out = 1 - bits (Fin.last n)

def Switcher (sel L R outL outR : Fr) : Prop :=
  ∃ aux, aux = (R - L) * sel ∧ outL = aux + L ∧ outR = -aux + R

/-! ### Bits -/

section
variable {n v b : Nat} {input sel L R outL outR : Fr} {out : Fin n → Fr}

theorem Num2Bits.bit (h : Num2Bits n input out) (i : Fin n) :
    out i = (decide (out i = 1)).toNat := by
  have hbit : out i * (1 - out i) = 0 := by linear_combination -h.bits i
  rcases zero_or_one hbit with hi | hi
  · rw [hi, decide_eq_false zero_ne_one]
    exact Nat.cast_zero.symm
  · rw [hi, decide_eq_true rfl]
    exact Nat.cast_one.symm

/-- The number of some bits, as an element. -/
theorem cast_ofBits (f : Fin n → Bool) :
    ((Nat.ofBits f : Nat) : Fr) = ∑ i, ((f i).toNat : Fr) * 2 ^ (i : Nat) := by
  induction n with
  | zero => simp
  | succ n ih =>
    rw [Nat.ofBits_succ, Fin.sum_univ_succ, Nat.cast_add, Nat.cast_mul, ih, Finset.mul_sum, add_comm]
    refine congrArg₂ (· + ·) (by simp) (Finset.sum_congr rfl fun i _ => ?_)
    rw [Fin.val_succ, pow_succ]
    push_cast [Function.comp_apply]
    ring

theorem Num2Bits.value (h : Num2Bits n input out) :
    input = ((Nat.ofBits fun i => decide (out i = 1) : Nat) : Fr) := by
  rw [cast_ofBits, ← h.sum]
  exact Finset.sum_congr rfl fun i _ => by rw [← h.bit i]

/-- Read as bits, an element is a small number. -/
theorem Num2Bits.small (h : Num2Bits n input out) : ∃ v < 2 ^ n, input = (v : Nat) :=
  ⟨_, Nat.ofBits_lt_two_pow _, h.value⟩

/-- The bits of a small number. -/
def bitsOf (n v : Nat) (i : Fin n) : Fr := ((v.testBit i).toNat : Nat)

theorem num2Bits_bitsOf (h : v < 2 ^ n) : Num2Bits n (v : Nat) (bitsOf n v) where
  bits i := by
    rw [bitsOf]
    cases v.testBit i <;> simp
  sum := by
    have hv : Nat.ofBits (fun i : Fin n => v.testBit i) = v := by
      refine Nat.eq_of_testBit_eq fun i => ?_
      by_cases hi : i < n
      · rw [Nat.testBit_ofBits_lt _ i hi]
      · rw [Nat.testBit_ofBits_ge _ i (Nat.not_lt.1 hi), Nat.testBit_lt_two_pow]
        exact Nat.lt_of_lt_of_le h (Nat.pow_le_pow_right (by decide) (Nat.not_lt.1 hi))
    conv_rhs => rw [← hv, cast_ofBits]
    rfl

/-! ### Comparison -/

/-- The element that is decomposed, for numbers: it is below `2 ^ n` where the first is less. -/
theorem lessThan_element (hb : b ≤ 2 ^ n) :
    ((v : Fr) + 2 ^ n - (b : Nat)) = ((v + 2 ^ n - b : Nat) : Fr) := by
  rw [Nat.cast_sub (by omega)]
  push_cast
  ring

theorem lessThan_iff (hn : n < 63) (hv : v < 2 ^ n) (hb : b ≤ 2 ^ n) :
    LessThan n (v : Nat) (b : Nat) 1 ↔ v < b := by
  have hpow : 2 ^ (n + 1) ≤ 2 ^ 63 := Nat.pow_le_pow_right (by decide) hn
  have hp := two_pow_lt_modulus
  have hsucc : 2 ^ (n + 1) = 2 * 2 ^ n := by rw [pow_succ, Nat.mul_comm]
  rw [LessThan, lessThan_element hb]
  constructor
  · rintro ⟨bits, h, hout⟩
    have hlast : bits (Fin.last n) = 0 := by linear_combination hout
    have hvalue : v + 2 ^ n - b = Nat.ofBits fun i => decide (bits i = 1) := by
      have hlt := Nat.ofBits_lt_two_pow fun i => decide (bits i = 1)
      exact cast_inj_of_lt (by omega) (by omega) h.value
    -- The top bit is clear.
    have htop : (v + 2 ^ n - b).testBit n = false := by
      rw [hvalue, Nat.testBit_ofBits_lt _ n (Nat.lt_succ_self n)]
      exact decide_eq_false (hlast ▸ zero_ne_one)
    by_contra hge
    rw [Nat.testBit_eq_decide_div_mod_eq, Nat.div_eq_of_lt_le (k := 1) (by omega) (by omega)] at htop
    exact absurd htop (by decide)
  · intro hlt
    refine ⟨bitsOf (n + 1) (v + 2 ^ n - b), num2Bits_bitsOf (by omega), ?_⟩
    have htop : (v + 2 ^ n - b).testBit n = false := Nat.testBit_lt_two_pow (by omega)
    rw [bitsOf, Fin.val_last, htop]
    simp

/-! ### Switching -/

theorem switcher_zero : Switcher 0 L R outL outR ↔ outL = L ∧ outR = R := by
  rw [Switcher]
  simp

theorem switcher_one : Switcher 1 L R outL outR ↔ outL = R ∧ outR = L := by
  rw [Switcher]
  simp

end

end StshProtocol.Circuits
