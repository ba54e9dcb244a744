import Mathlib.Algebra.Order.Ring.Int
import Mathlib.Data.Set.Function
import Mathlib.Tactic.Common
import Mathlib.Tactic.Ring

/-! Complete binary trees over a row of leaves.

The value of a node is the pair function of its two children, down to the leaves
(`node`). It depends on the leaves below it only (`node_congr`), so appending one leaf
changes the nodes on one path (`node_append`), and a node with no leaf below it yet has
the value of the blank tree of its level (`node_row_blank`). -/
namespace StshProtocol.Foundation.BinaryTree

variable {α : Type} (H : α → α → α)

/-- The `i`-th node of a level; level zero is the leaves. -/
def node (leaf : Nat → α) : Nat → Nat → α
  | 0, i => leaf i
  | l + 1, i => H (node leaf l (2 * i)) (node leaf l (2 * i + 1))

/-- The nodes of a tree whose leaves are all `z`. -/
def blank (z : α) : Nat → α
  | 0 => z
  | l + 1 => H (blank z l) (blank z l)

/-- Some leaves, and `z` from there on. -/
def row (z : α) (leaves : List α) (i : Nat) : α := leaves.getD i z

variable {H} {z c : α} {leaf leaf' : Nat → α} {leaves : List α} {l i k : Nat}

theorem node_congr (h : ∀ j, i * 2 ^ l ≤ j → j < (i + 1) * 2 ^ l → leaf j = leaf' j) :
    node H leaf l i = node H leaf' l i := by
  induction l generalizing i with
  | zero => exact h i (by omega) (by omega)
  | succ l ih =>
    rw [node, node]
    rw [show i * 2 ^ (l + 1) = 2 * i * 2 ^ l by ring,
      show (i + 1) * 2 ^ (l + 1) = (2 * i + 2) * 2 ^ l by ring] at h
    have hleft := ih (i := 2 * i) fun j hlo hhi =>
      h j hlo (Nat.lt_of_lt_of_le hhi (Nat.mul_le_mul_right _ (by omega)))
    have hright := ih (i := 2 * i + 1) fun j hlo hhi =>
      h j (Nat.le_trans (Nat.mul_le_mul_right _ (by omega)) hlo) hhi
    rw [hleft, hright]

theorem node_const (h : ∀ j, i * 2 ^ l ≤ j → leaf j = z) : node H leaf l i = blank H z l := by
  induction l generalizing i with
  | zero => exact h i (by omega)
  | succ l ih =>
    rw [node, blank]
    rw [show i * 2 ^ (l + 1) = 2 * i * 2 ^ l by ring] at h
    have hleft := ih (i := 2 * i) fun j hlo => h j hlo
    have hright := ih (i := 2 * i + 1) fun j hlo =>
      h j (Nat.le_trans (Nat.mul_le_mul_right _ (by omega)) hlo)
    rw [hleft, hright]

/-- One step up the path from a leaf: its node is paired with the sibling. -/
theorem node_up (leaf : Nat → α) (k l : Nat) :
    node H leaf (l + 1) (k / 2 ^ (l + 1)) =
      if k / 2 ^ l % 2 = 0 then H (node H leaf l (k / 2 ^ l)) (node H leaf l (k / 2 ^ l + 1))
      else H (node H leaf l (k / 2 ^ l - 1)) (node H leaf l (k / 2 ^ l)) := by
  rw [node, pow_succ, ← Nat.div_div_eq_div_mul]
  generalize k / 2 ^ l = i
  split
  · rw [show 2 * (i / 2) = i by omega]
  · rw [show 2 * (i / 2) + 1 = i by omega, show 2 * (i / 2) = i - 1 by omega]

/-! ### Rows of leaves -/

/-- Past the leaves given there is only `z`. -/
theorem row_of_le (h : leaves.length ≤ k) : row z leaves k = z := by
  rw [row, List.getD_eq_getElem?_getD, List.getElem?_eq_none h, Option.getD_none]

theorem row_append_of_ne (h : k ≠ leaves.length) : row z (leaves ++ [c]) k = row z leaves k := by
  rcases Nat.lt_or_gt_of_ne h with hlt | hgt
  · rw [row, row, List.getD_eq_getElem?_getD, List.getD_eq_getElem?_getD,
      List.getElem?_append_left hlt]
  · rw [row_of_le (Nat.le_of_lt hgt), row_of_le]
    rw [List.length_append, List.length_singleton]
    omega

theorem row_append_self : row z (leaves ++ [c]) leaves.length = c := by simp [row]

/-- A new leaf changes only the nodes above it. -/
theorem node_append (h : leaves.length / 2 ^ l ≠ i) :
    node H (row z (leaves ++ [c])) l i = node H (row z leaves) l i := by
  refine node_congr fun j hlo hhi => row_append_of_ne ?_
  rintro rfl
  exact h (Nat.div_eq_of_lt_le hlo hhi)

theorem row_take {n : Nat} (h : k < n) : row z (leaves.take n) k = row z leaves k := by
  rw [row, row, List.getD_eq_getElem?_getD, List.getD_eq_getElem?_getD, List.getElem?_take_of_lt h]

/-- A node is what it was when the last leaf below it had been appended. -/
theorem node_take : node H (row z (leaves.take ((i + 1) * 2 ^ l))) l i = node H (row z leaves) l i :=
  node_congr fun _ _ hhi => row_take hhi

/-- A node with no leaf below it is blank. -/
theorem node_row_blank (h : leaves.length ≤ i * 2 ^ l) :
    node H (row z leaves) l i = blank H z l :=
  node_const fun _ hlo => row_of_le (Nat.le_trans h hlo)

end StshProtocol.Foundation.BinaryTree

/-! Paths in a complete binary tree.

A path is the siblings met on the way up, each with the side it stands on. The path of a leaf climbs
to the root (`climb_path`); and where no two of the pairs that are hashed have one hash, whatever
climbs to the root is the leaf at the position its sides spell (`leaf_of_climb`). -/
namespace StshProtocol.Foundation.MerklePath
open StshProtocol.Foundation.BinaryTree

variable {α : Type} (H : α → α → α)

/-- The pair that is hashed: the sibling stands on the left where its side says so. -/
def side (current : α) (s : Bool × α) : α × α :=
  if s.1 then (s.2, current) else (current, s.2)

/-- The value one level up. -/
def up (current : α) (s : Bool × α) : α := H (side current s).1 (side current s).2

def climb (current : α) (path : List (Bool × α)) : α := path.foldl (up H) current

/-- The pairs hashed on the way. -/
def pairs : α → List (Bool × α) → List (α × α)
  | _, [] => []
  | current, s :: path => side current s :: pairs (up H current s) path

/-- The position the sides spell, the lowest first. -/
def position : List (Bool × α) → Nat
  | [] => 0
  | s :: path => s.1.toNat + 2 * position path

/-- The path from a node, `n` levels up. -/
def path (leaf : Nat → α) : Nat → Nat → Nat → List (Bool × α)
  | 0, _, _ => []
  | n + 1, l, k =>
    (k % 2 == 1, node H leaf l (if k % 2 = 0 then k + 1 else k - 1)) :: path leaf n (l + 1) (k / 2)

variable {H} {leaf : Nat → α}

theorem length_path (n l k : Nat) : (path H leaf n l k).length = n := by
  induction n generalizing l k with
  | zero => rfl
  | succ n ih => rw [path, List.length_cons, ih]

/-- One step up a path is the node above. -/
theorem up_node (l k : Nat) :
    up H (node H leaf l k) (k % 2 == 1, node H leaf l (if k % 2 = 0 then k + 1 else k - 1)) =
      node H leaf (l + 1) (k / 2) := by
  have habove := node_up (H := H) leaf (k * 2 ^ l) l
  rw [Nat.mul_div_cancel k (Nat.two_pow_pos l), pow_succ, Nat.mul_comm (2 ^ l) 2,
    ← Nat.div_div_eq_div_mul, Nat.div_right_comm, Nat.mul_div_cancel k (Nat.two_pow_pos l)] at habove
  rw [habove, up, side]
  by_cases heven : k % 2 = 0
  · have hbit : (k % 2 == 1) = false := by
      rw [heven]
      rfl
    simp only [hbit, if_pos heven, Bool.false_eq_true, if_false]
  · have hbit : (k % 2 == 1) = true := by
      rw [show k % 2 = 1 by omega]
      rfl
    simp only [hbit, if_neg heven, if_true]

/-- The path of a node leads to the node above. -/
theorem climb_path (n l k : Nat) :
    climb H (node H leaf l k) (path H leaf n l k) = node H leaf (l + n) (k / 2 ^ n) := by
  induction n generalizing l k with
  | zero => rw [path, pow_zero, Nat.div_one]; rfl
  | succ n ih =>
    rw [path, climb, List.foldl_cons, up_node]
    have hrest := ih (l + 1) (k / 2)
    rw [Nat.div_div_eq_div_mul, ← Nat.pow_succ', Nat.add_right_comm] at hrest
    exact hrest

theorem position_path (n l k : Nat) : position (path H leaf n l k) = k % 2 ^ n := by
  induction n generalizing l k with
  | zero => rw [pow_zero, Nat.mod_one]; rfl
  | succ n ih =>
    have hbit : (k % 2 == 1).toNat = k % 2 := by
      rcases Nat.mod_two_eq_zero_or_one k with h | h <;> rw [h] <;> rfl
    rw [path, position, ih, hbit, Nat.pow_succ', Nat.mod_mul]

/-! ### Soundness -/

/-- The pairs hashed in the tree, below a level. -/
def treePairs (H : α → α → α) (leaf : Nat → α) (n : Nat) : Set (α × α) :=
  {p | ∃ l < n, ∃ k, p = (node H leaf l (2 * k), node H leaf l (2 * k + 1))}

/-- What reaches a node above reaches each node on the way. -/
theorem leaf_of_climb {n l k : Nat} {current : α} {steps : List (Bool × α)}
    (hn : l + steps.length ≤ n)
    (hfree : Set.InjOn (fun p : α × α => H p.1 p.2)
      (treePairs H leaf n ∪ {p | p ∈ pairs H current steps}))
    (h : climb H current steps = node H leaf (l + steps.length) k) :
    current = node H leaf l (k * 2 ^ steps.length + position steps) := by
  induction steps generalizing l current with
  | nil =>
    rw [position, List.length_nil, pow_zero, Nat.mul_one]
    exact h
  | cons s steps ih =>
    rw [List.length_cons] at h hn
    have hup : up H current s = node H leaf (l + 1) (k * 2 ^ steps.length + position steps) := by
      refine ih (by omega) (hfree.mono ?_) (h.trans ?_)
      · exact Set.union_subset_union_right _ fun p hp => List.mem_cons_of_mem _ hp
      · rw [Nat.add_assoc l 1, Nat.add_comm 1]
    have hpair : side current s = (node H leaf l (2 * (k * 2 ^ steps.length + position steps)),
        node H leaf l (2 * (k * 2 ^ steps.length + position steps) + 1)) :=
      hfree (.inr (List.mem_cons_self ..)) (.inl ⟨l, by omega, _, rfl⟩) hup
    have hposition : k * 2 ^ (steps.length + 1) + position (s :: steps) =
        2 * (k * 2 ^ steps.length + position steps) + s.1.toNat := by
      rw [position]
      ring
    rw [List.length_cons, hposition]
    obtain ⟨b, sibling⟩ := s
    cases b with
    | false => exact congrArg Prod.fst hpair
    | true => exact congrArg Prod.snd hpair

end StshProtocol.Foundation.MerklePath
