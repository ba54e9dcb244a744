import StshProtocol.Foundation.MapTotal
import StshProtocol.Foundation.Bytes

/-! Byte strings as map keys, in lexicographic order, and counting the rows of a key range.

Behind prefixes of one length the prefixes decide the order (`compare_append_of_ne`); behind
a common prefix what follows does (`compare_append`). So the keys behind one prefix are an
interval, and a count over it is not moved by a row behind another prefix. -/
namespace StshProtocol.Foundation

namespace ByteKeys

theorem compare_cons (a b : UInt8) (as bs : List UInt8) :
    compare (a :: as) (b :: bs) = (compare a b).then (compare as bs) := List.compareLex_cons_cons

theorem compare_append (p x y : List UInt8) : compare (p ++ x) (p ++ y) = compare x y := by
  induction p with
  | nil => rfl
  | cons b p ih =>
    rw [List.cons_append, List.cons_append, compare_cons, Std.compare_self, ih]
    rfl

/-- Strings that differ at their heads are ordered by them. -/
theorem compare_cons_of_ne {a b : UInt8} (h : a ≠ b) (as bs : List UInt8) :
    compare (a :: as) (b :: bs) = compare a b := by
  rw [compare_cons]
  cases hc : compare a b with
  | lt => rfl
  | gt => rfl
  | eq => exact absurd (Std.compare_eq_iff_eq.1 hc) h

theorem compare_append_of_ne {p q : List UInt8} (hlen : p.length = q.length) (hne : p ≠ q)
    (x y : List UInt8) : compare (p ++ x) (q ++ y) = compare p q := by
  induction p generalizing q with
  | nil =>
    cases q with
    | nil => exact absurd rfl hne
    | cons _ _ => cases hlen
  | cons a p ih =>
    cases q with
    | nil => cases hlen
    | cons b q =>
      rw [List.cons_append, List.cons_append, compare_cons, compare_cons]
      by_cases hab : a = b
      · subst hab
        have hrest : p ≠ q := fun h => hne (congrArg _ h)
        rw [ih (Nat.succ.inj hlen) hrest]
      · cases hc : compare a b with
        | lt => rfl
        | gt => rfl
        | eq => exact absurd (Std.compare_eq_iff_eq.1 hc) hab

theorem replicate_zero_le (xs : List UInt8) :
    (compare (List.replicate xs.length 0) xs).isLE = true := by
  induction xs with
  | nil => rfl
  | cons b xs ih =>
    rw [List.length_cons, List.replicate_succ, compare_cons]
    cases hc : compare 0 b with
    | lt => rfl
    | eq => exact ih
    | gt => exact absurd (UInt8.lt_iff_toNat_lt.1 (Std.compare_eq_gt.1 hc)) (Nat.not_lt_zero _)

theorem le_replicate_max (xs : List UInt8) :
    (compare xs (List.replicate xs.length 255)).isLE = true := by
  induction xs with
  | nil => rfl
  | cons b xs ih =>
    rw [List.length_cons, List.replicate_succ, compare_cons]
    cases hc : compare b 255 with
    | lt => rfl
    | eq => exact ih
    | gt =>
      have hlt := UInt8.lt_iff_toNat_lt.1 (Std.compare_eq_gt.1 hc)
      exact absurd hlt (Nat.not_lt.2 (Nat.le_of_lt_succ b.toNat_lt))

/-- The keys between the least and the greatest behind one prefix have it, where prefixes and
what follows have one length each. -/
theorem range_iff {p q x : List UInt8} (hlen : p.length = q.length) :
    ((compare (p ++ List.replicate x.length 0) (q ++ x)).isLE = true ∧
      (compare (q ++ x) (p ++ List.replicate x.length 255)).isLE = true) ↔ p = q := by
  constructor
  · rintro ⟨hlo, hhi⟩
    by_contra hne
    rw [compare_append_of_ne hlen hne] at hlo
    rw [compare_append_of_ne hlen.symm (Ne.symm hne), Std.OrientedOrd.eq_swap] at hhi
    cases hc : compare p q with
    | lt => rw [hc] at hhi; exact absurd hhi (by decide)
    | gt => rw [hc] at hlo; exact absurd hlo (by decide)
    | eq => exact hne (Std.compare_eq_iff_eq.1 hc)
  · rintro rfl
    rw [compare_append, compare_append]
    exact ⟨replicate_zero_le x, le_replicate_max x⟩

/-- Strings of one length are ordered as the big-endian numbers they are. -/
theorem compare_eq_ofBe {xs ys : List UInt8} (h : xs.length = ys.length) :
    compare xs ys = compare (Bytes.ofBe xs) (Bytes.ofBe ys) := by
  induction xs generalizing ys with
  | nil =>
    cases ys with
    | nil => rfl
    | cons _ _ => cases h
  | cons a xs ih =>
    cases ys with
    | nil => cases h
    | cons b ys =>
      have hlen : xs.length = ys.length := Nat.succ.inj h
      have hx := Bytes.ofBe_lt xs
      have hy := Bytes.ofBe_lt ys
      rw [compare_cons, ih hlen, Bytes.ofBe_cons, Bytes.ofBe_cons, hlen]
      rw [hlen] at hx
      generalize 256 ^ ys.length = base at hx hy
      -- The heads decide unless they agree: what follows is less than the base.
      have step : ∀ m n : Nat, m < n → base * m + base ≤ base * n := fun m n hmn => by
        have := Nat.mul_le_mul_left base (Nat.succ_le_of_lt hmn)
        rwa [Nat.mul_succ] at this
      cases hc : compare a b with
      | eq =>
        have hshift : ∀ m n k : Nat, compare m n = compare (k + m) (k + n) := fun m n k => by
          simp only [compare, compareOfLessAndEq, Nat.add_lt_add_iff_left, Nat.add_left_cancel_iff]
        rw [Std.compare_eq_iff_eq.1 hc]
        exact hshift _ _ _
      | lt =>
        have := step _ _ (UInt8.lt_iff_toNat_lt.1 (Std.compare_eq_lt.1 hc))
        exact (Nat.compare_eq_lt.2 (by omega)).symm
      | gt =>
        have := step _ _ (UInt8.lt_iff_toNat_lt.1 (Std.compare_eq_gt.1 hc))
        exact (Nat.compare_eq_gt.2 (by omega)).symm

end ByteKeys

namespace StableMap
variable {κ ν : Type} [Ord κ]

/-- The key lies between the bounds, the upper one left out. -/
def InRange (lo hi k : κ) : Prop := (compare lo k).isLE = true ∧ compare k hi = .lt

instance (lo hi k : κ) : Decidable (InRange lo hi k) := inferInstanceAs (Decidable (_ ∧ _))

variable [Std.TransOrd κ]

/-- `range(lo..hi).count()`. -/
def rangeCount (lo hi : κ) (m : StableMap κ ν) : Nat := m.toList.countP fun e => InRange lo hi e.1

@[simp] theorem rangeCount_empty (lo hi : κ) : rangeCount lo hi (∅ : StableMap κ ν) = 0 := rfl

variable [Std.LawfulEqOrd κ] {lo hi k : κ} {m : StableMap κ ν}

/-- A row under a new key counts if its key is in the range. -/
theorem rangeCount_insert (h : m[k]? = none) (v : ν) :
    rangeCount lo hi (m.insert k v) = rangeCount lo hi m + if InRange lo hi k then 1 else 0 := by
  have hperm := toList_insert_perm m k v
  rw [erase_of_none h] at hperm
  rw [rangeCount, hperm.countP_eq, List.countP_cons, rangeCount]
  simp only [decide_eq_true_eq]

end StableMap
end StshProtocol.Foundation
