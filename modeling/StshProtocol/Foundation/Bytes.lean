import Mathlib.Algebra.Order.Ring.Int
import Mathlib.Tactic.Common

/-! Fixed-width numbers as byte strings, and reading a byte string from the front. -/
namespace StshProtocol.Foundation.Bytes

instance lawfulBEq_bytes : LawfulBEq (List UInt8) := inferInstance

/-- The `w` low bytes of `n`, least significant first. -/
def toLe : Nat → Nat → List UInt8
  | 0, _ => []
  | w + 1, n => UInt8.ofNat n :: toLe w (n / 256)

/-- The number whose bytes these are, least significant first. -/
def ofLe : List UInt8 → Nat
  | [] => 0
  | b :: bs => b.toNat + 256 * ofLe bs

/-- The `w` low bytes of `n`, most significant first. -/
def toBe (w n : Nat) : List UInt8 := (toLe w n).reverse

/-- The number whose bytes these are, most significant first. -/
def ofBe (bs : List UInt8) : Nat := ofLe bs.reverse

@[simp] theorem length_toLe (w n : Nat) : (toLe w n).length = w := by
  induction w generalizing n with
  | zero => rfl
  | succ w ih => simp [toLe, ih]

@[simp] theorem length_toBe (w n : Nat) : (toBe w n).length = w := by
  simp [toBe]

theorem ofLe_toLe (w n : Nat) : ofLe (toLe w n) = n % 256 ^ w := by
  induction w generalizing n with
  | zero => simp [toLe, ofLe, Nat.mod_one]
  | succ w ih =>
    rw [toLe, ofLe, ih, UInt8.toNat_ofNat', show 256 ^ (w + 1) = 256 * 256 ^ w from Nat.pow_succ']
    exact Nat.mod_mul.symm

theorem ofBe_toBe {w n : Nat} (h : n < 256 ^ w) : ofBe (toBe w n) = n := by
  rw [ofBe, toBe, List.reverse_reverse, ofLe_toLe, Nat.mod_eq_of_lt h]

theorem toLe_inj {w m n : Nat} (hm : m < 256 ^ w) (hn : n < 256 ^ w) :
    toLe w m = toLe w n ↔ m = n := by
  refine ⟨fun h => ?_, fun h => h ▸ rfl⟩
  rw [← Nat.mod_eq_of_lt hm, ← Nat.mod_eq_of_lt hn, ← ofLe_toLe, ← ofLe_toLe, h]

/-- A word in front of a string is told apart from what follows it. -/
theorem toLe_append_inj {w m n : Nat} {as bs : List UInt8} (hm : m < 256 ^ w) (hn : n < 256 ^ w) :
    toLe w m ++ as = toLe w n ++ bs ↔ m = n ∧ as = bs := by
  constructor
  · intro h
    obtain ⟨hword, hrest⟩ := List.append_inj h (by rw [length_toLe, length_toLe])
    exact ⟨(toLe_inj hm hn).1 hword, hrest⟩
  · rintro ⟨rfl, rfl⟩
    rfl

theorem ofLe_lt (bs : List UInt8) : ofLe bs < 256 ^ bs.length := by
  induction bs with
  | nil => exact Nat.one_pos
  | cons b bs ih =>
    have hb : b.toNat < 256 := b.toNat_lt
    rw [ofLe, List.length_cons, Nat.pow_succ']
    omega

theorem toLe_ofLe (bs : List UInt8) : toLe bs.length (ofLe bs) = bs := by
  induction bs with
  | nil => rfl
  | cons b bs ih =>
    have hb : b.toNat < 256 := b.toNat_lt
    have hlow : UInt8.ofNat (b.toNat + 256 * ofLe bs) = b := by
      apply UInt8.toNat_inj.1
      rw [UInt8.toNat_ofNat']
      omega
    have hhigh : (b.toNat + 256 * ofLe bs) / 256 = ofLe bs := by omega
    rw [ofLe, List.length_cons, toLe, hlow, hhigh, ih]

theorem ofLe_append (as bs : List UInt8) :
    ofLe (as ++ bs) = ofLe as + 256 ^ as.length * ofLe bs := by
  induction as with
  | nil => simp [ofLe]
  | cons a as ih =>
    rw [List.cons_append, ofLe, ofLe, ih, List.length_cons, Nat.pow_succ', Nat.mul_add,
      Nat.mul_assoc, Nat.add_assoc]

theorem ofBe_cons (b : UInt8) (bs : List UInt8) :
    ofBe (b :: bs) = 256 ^ bs.length * b.toNat + ofBe bs := by
  rw [ofBe, List.reverse_cons, ofLe_append, List.length_reverse, ofBe, ofLe, ofLe, Nat.mul_zero,
    Nat.add_zero, Nat.add_comm]

theorem toBe_ofBe {w : Nat} {bs : List UInt8} (h : bs.length = w) : toBe w (ofBe bs) = bs := by
  rw [toBe, ofBe, ← h, ← List.length_reverse, toLe_ofLe, List.reverse_reverse]

theorem ofBe_lt (bs : List UInt8) : ofBe bs < 256 ^ bs.length := by
  rw [ofBe, ← List.length_reverse]
  exact ofLe_lt _

/-- The next `n` bytes and what follows them, when there are that many. -/
def take (n : Nat) (bs : List UInt8) : Option (List UInt8 × List UInt8) :=
  if n ≤ bs.length then some (bs.take n, bs.drop n) else none

theorem take_append {n : Nat} {front : List UInt8} (rest : List UInt8) (h : front.length = n) :
    take n (front ++ rest) = some (front, rest) := by
  subst h
  simp [take]

theorem take_eq_some {n : Nat} {bs front rest : List UInt8} (h : take n bs = some (front, rest)) :
    bs = front ++ rest ∧ front.length = n := by
  unfold take at h
  split at h
  · next hle =>
    obtain ⟨rfl, rfl⟩ := Prod.mk.inj (Option.some.inj h)
    exact ⟨(List.take_append_drop n bs).symm, List.length_take_of_le hle⟩
  · exact nomatch h

end StshProtocol.Foundation.Bytes
