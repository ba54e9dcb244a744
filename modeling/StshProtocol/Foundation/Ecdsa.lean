import Mathlib.Algebra.Order.Ring.Int
import Mathlib.Algebra.Group.Basic
import Mathlib.Tactic.Ring
import Mathlib.Data.ZMod.Basic

/-! ECDSA verification, over a group of points of order `n`.

What is used of the curve is that the order kills every point, and that a point and its negative
have one abscissa. A signature `(r, s)` and its mirror `(r, n - s)` are then signatures of the same
digests by the same keys (`verifies_mirror`). -/
namespace StshProtocol.Foundation.Ecdsa

structure Curve (n : Nat) (G : Type) [AddCommGroup G] where
  base : G
  x : G → Nat
  order_nsmul : ∀ P : G, n • P = 0
  x_neg : ∀ P : G, x (-P) = x P

variable {n : Nat} {G : Type} [AddCommGroup G]

/-- The point a verifier computes, `w` being the inverse of `s`. -/
def Curve.point (C : Curve n G) (key : G) (digest r w : Nat) : G :=
  (digest * w) • C.base + (r * w) • key

/-- `(r, s)` is a signature of the digest by the key. -/
def Curve.Verifies (C : Curve n G) (key : G) (digest r s : Nat) : Prop :=
  (0 < r ∧ r < n) ∧ (0 < s ∧ s < n) ∧
    ∃ w, s * w % n = 1 % n ∧ C.point key digest r w ≠ 0 ∧ C.x (C.point key digest r w) % n = r

namespace Curve
variable (C : Curve n G) (key : G) (digest : Nat) {r s : Nat}

theorem pred_nsmul (C : Curve n G) (P : G) (hn : 0 < n) : (n - 1) • P = -P := by
  have hsum : (n - 1) • P + P = 0 := by
    rw [← succ_nsmul, Nat.sub_add_cancel hn]
    exact C.order_nsmul P
  exact eq_neg_of_add_eq_zero_left hsum

/-- The inverse of the mirror gives the negative point. -/
theorem point_mirror (w : Nat) (hn : 0 < n) :
    C.point key digest r ((n - 1) * w) = -C.point key digest r w := by
  rw [← C.pred_nsmul _ hn, point, point, nsmul_add, ← mul_nsmul', ← mul_nsmul',
    Nat.mul_left_comm digest, Nat.mul_left_comm r]

theorem mirror_mul {s : Nat} (w : Nat) (h : 0 < s ∧ s < n) :
    (n - s) * ((n - 1) * w) % n = s * w % n := by
  obtain ⟨k, rfl⟩ : ∃ k, n = s + 1 + k := ⟨n - s - 1, by omega⟩
  have hs : s + 1 + k - s = k + 1 := by omega
  have hone : s + 1 + k - 1 = s + k := by omega
  have hproduct : (k + 1) * ((s + k) * w) = s * w + (s + 1 + k) * (k * w) := by ring
  rw [hs, hone, hproduct, Nat.add_mul_mod_self_left]

variable {key digest}

theorem Verifies.mirror (h : C.Verifies key digest r s) : C.Verifies key digest r (n - s) := by
  obtain ⟨hr, hs, w, hinverse, hpoint, hx⟩ := h
  have hn : 0 < n := by omega
  refine ⟨hr, by omega, (n - 1) * w, ?_, ?_, ?_⟩
  · rw [mirror_mul w hs, hinverse]
  · rw [C.point_mirror key digest w hn]
    exact neg_ne_zero.2 hpoint
  · rw [C.point_mirror key digest w hn, C.x_neg, hx]

/-- A signature and its mirror are signatures of the same digests. -/
theorem verifies_mirror (hs : s < n) :
    C.Verifies key digest r (n - s) ↔ C.Verifies key digest r s := by
  constructor
  · intro h
    have hback := Verifies.mirror C h
    rwa [Nat.sub_sub_self (Nat.le_of_lt hs)] at hback
  · exact Verifies.mirror C

end Curve

/-- The points written by their logarithms: `gx` is the abscissa of the base point. -/
def ofLog (n gx : Nat) : Curve n (ZMod n) where
  base := 1
  x P := if P = 1 ∨ P = -1 then gx else 0
  order_nsmul P := by rw [nsmul_eq_mul, CharP.cast_eq_zero, zero_mul]
  x_neg P := by
    have hneg : (-P = 1 ∨ -P = -1) ↔ (P = 1 ∨ P = -1) := by
      rw [neg_inj, neg_eq_iff_eq_neg, or_comm]
    simp only [hneg]

/-- The key `1` signs with the nonce `1`. -/
theorem ofLog_verifies {n gx : Nat} (h : 0 < gx ∧ gx < n - 1) :
    (ofLog n gx).Verifies 1 (n - 1 - gx) gx (n - 1) := by
  obtain ⟨k, rfl⟩ : ∃ k, n = k + 2 := ⟨n - 2, by omega⟩
  have hone : k + 2 - 1 = k + 1 := rfl
  have hinverse : (k + 1) * (k + 1) = 1 + (k + 2) * k := by ring
  have hbase : (ofLog (k + 2) gx).point 1 (k + 1 - gx) gx (k + 1) = 1 := by
    have hsum : (k + 1 - gx) * (k + 1) + gx * (k + 1) = 1 + (k + 2) * k := by
      rw [← Nat.add_mul, Nat.sub_add_cancel (by omega), hinverse]
    have hzero : ((k + 2 : Nat) : ZMod (k + 2)) = 0 := ZMod.natCast_self _
    rw [Curve.point, ofLog, nsmul_one, nsmul_one, ← Nat.cast_add, hsum, Nat.cast_add, Nat.cast_mul,
      hzero, zero_mul, add_zero, Nat.cast_one]
  have hfact : Fact (1 < k + 2) := ⟨by omega⟩
  refine ⟨by omega, by omega, k + 1, ?_, ?_, ?_⟩
  · rw [hone, hinverse, Nat.add_mul_mod_self_left]
  · rw [hone, hbase]
    exact one_ne_zero
  · have hx : (ofLog (k + 2) gx).x 1 = gx := by simp [ofLog]
    rw [hone, hbase, hx, Nat.mod_eq_of_lt (by omega)]

end StshProtocol.Foundation.Ecdsa
