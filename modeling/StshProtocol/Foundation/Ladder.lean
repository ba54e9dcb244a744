import Mathlib.Algebra.Order.Ring.Int
import Mathlib.Algebra.Order.Group.Nat
import Mathlib.Algebra.BigOperators.Group.List.Basic
import Mathlib.Tactic.Common

/-! Giving change on a ladder of denominations.

On a ladder every denomination divides the one above it. Taking the greatest one as often as it fits,
then the next, and so on, gives an amount in full whenever any pieces do (`rest_sum`), and no pieces
are fewer (`change_least`): one piece more never saves the greedy change a piece. -/
namespace StshProtocol.Foundation.Ladder

/-- The greatest denomination first; each divides those before it. -/
structure IsLadder (ds : List Nat) : Prop where
  pos : ∀ d ∈ ds, 0 < d
  divides : ds.Pairwise fun big small => small ∣ big

/-- The greedy change. -/
def change : List Nat → Nat → List Nat
  | [], _ => []
  | d :: ds, m => List.replicate (m / d) d ++ change ds (m % d)

/-- What the greedy change leaves. -/
def rest : List Nat → Nat → Nat
  | [], m => m
  | d :: ds, m => rest ds (m % d)

variable {ds : List Nat} {d e m : Nat}

theorem IsLadder.tail (h : IsLadder (d :: ds)) : IsLadder ds :=
  ⟨fun d' hd' => h.pos d' (List.mem_cons_of_mem _ hd'), (List.pairwise_cons.1 h.divides).2⟩

theorem change_cons_length (d : Nat) (ds : List Nat) (m : Nat) :
    (change (d :: ds) m).length = m / d + (change ds (m % d)).length := by
  rw [change, List.length_append, List.length_replicate]

theorem change_sum (ds : List Nat) (m : Nat) : (change ds m).sum + rest ds m = m := by
  induction ds generalizing m with
  | nil => exact Nat.zero_add m
  | cons d ds ih =>
    rw [change, rest, List.sum_append, List.sum_replicate_nat, Nat.add_assoc, ih, Nat.mul_comm]
    exact Nat.div_add_mod m d

theorem change_zero (ds : List Nat) : change ds 0 = [] := by
  induction ds with
  | nil => rfl
  | cons d ds ih => rw [change, Nat.zero_div, Nat.zero_mod, ih, List.replicate_zero, List.nil_append]

theorem rest_zero (ds : List Nat) : rest ds 0 = 0 := by
  have h := change_sum ds 0
  omega

theorem mem_of_change (h : e ∈ change ds m) : e ∈ ds := by
  induction ds generalizing m with
  | nil => exact h
  | cons d ds ih =>
    rcases List.mem_append.1 h with h | h
    · rw [(List.mem_replicate.1 h).2]
      exact List.mem_cons_self
    · exact List.mem_cons_of_mem _ (ih h)

/-- The pieces come from the greatest down. -/
theorem change_sorted (h : ds.Pairwise fun big small => small ≤ big) (m : Nat) :
    (change ds m).Pairwise fun big small => small ≤ big := by
  induction ds generalizing m with
  | nil => exact List.Pairwise.nil
  | cons d ds ih =>
    obtain ⟨hd, hds⟩ := List.pairwise_cons.1 h
    refine List.pairwise_append.2 ⟨?_, ih hds _, fun a ha b hb => ?_⟩
    · exact List.pairwise_replicate.2 (.inr (Nat.le_refl d))
    · rw [(List.mem_replicate.1 ha).2]
      exact hd b (mem_of_change hb)

/-! ### One piece more -/

/-- A denomination leaves nothing. -/
theorem rest_add (h : IsLadder ds) (he : e ∈ ds) (m : Nat) : rest ds (m + e) = rest ds m := by
  induction ds generalizing m with
  | nil => exact absurd he List.not_mem_nil
  | cons d ds ih =>
    rw [rest, rest]
    rcases List.mem_cons.1 he with rfl | he
    · rw [Nat.add_mod_right]
    · obtain ⟨k, hk⟩ := (List.pairwise_cons.1 h.divides).1 e he
      have hd := h.pos d List.mem_cons_self
      -- The sum may pass one `d`, which is a multiple of `e`.
      have hrest : ∀ (x j : Nat), rest ds (x + e * j) = rest ds x := by
        intro x j
        induction j with
        | zero => rfl
        | succ j hj => rw [Nat.mul_succ, ← Nat.add_assoc, ih h.tail he, hj]
      have hmod : (m + e) % d + d * ((m % d + e) / d) = m % d + e := by
        rw [Nat.add_comm, ← Nat.mod_add_mod]
        exact Nat.div_add_mod _ d
      have hleft : rest ds ((m + e) % d + e * (k * ((m % d + e) / d))) = rest ds (m % d + e * 1) := by
        rw [← Nat.mul_assoc, ← hk, hmod, Nat.mul_one]
      rw [hrest, hrest] at hleft
      exact hleft

/-- Multiples of a denomination do not mix with what is below it. -/
theorem change_length_mul_add (h : IsLadder ds) (he : e ∈ ds) {x : Nat} (hx : x < e) (j : Nat) :
    (change ds x).length ≤ (change ds (x + e * j)).length := by
  induction ds generalizing j with
  | nil => exact absurd he List.not_mem_nil
  | cons d ds ih =>
    rw [change_cons_length, change_cons_length]
    have hd := h.pos d List.mem_cons_self
    rcases List.mem_cons.1 he with rfl | hbelow
    · rw [Nat.add_mul_mod_self_left, Nat.div_eq_of_lt hx, Nat.zero_add]
      exact Nat.le_add_left _ _
    · obtain ⟨k, rfl⟩ := (List.pairwise_cons.1 h.divides).1 e hbelow
      have hpos := h.pos e (List.mem_cons_of_mem _ hbelow)
      have hk : 0 < k := Nat.pos_of_mul_pos_left hd
      have hle : x < e * k := Nat.lt_of_lt_of_le hx (Nat.le_mul_of_pos_right e hk)
      have hmod : (x + e * j) % (e * k) = x + e * (j % k) := by
        have hlt : x + e * (j % k) < e * k := by
          have hj := Nat.mod_lt j hk
          calc x + e * (j % k) < e + e * (j % k) := by omega
            _ = e * (j % k + 1) := by rw [Nat.mul_succ, Nat.add_comm]
            _ ≤ e * k := Nat.mul_le_mul_left e hj
        have hsplit : x + e * j = x + e * (j % k) + e * k * (j / k) := by
          rw [Nat.mul_assoc, Nat.add_assoc, ← Nat.mul_add, Nat.mod_add_div]
        rw [hsplit, Nat.add_mul_mod_self_left, Nat.mod_eq_of_lt hlt]
      rw [hmod, Nat.div_eq_of_lt hle, Nat.mod_eq_of_lt hle, Nat.zero_add]
      exact Nat.le_trans (ih h.tail hbelow (j % k)) (Nat.le_add_left _ _)

/-- One piece more costs the greedy change at most one. -/
theorem change_length_add (h : IsLadder ds) (he : e ∈ ds) (m : Nat) :
    (change ds (m + e)).length ≤ (change ds m).length + 1 := by
  induction ds generalizing m with
  | nil => exact absurd he List.not_mem_nil
  | cons d ds ih =>
    rw [change_cons_length, change_cons_length]
    have hd := h.pos d List.mem_cons_self
    rcases List.mem_cons.1 he with rfl | he
    · rw [Nat.add_mod_right, Nat.add_div_right _ hd]
      omega
    · have hpos := h.pos e (List.mem_cons_of_mem _ he)
      obtain ⟨k, hk⟩ := (List.pairwise_cons.1 h.divides).1 e he
      have hle : e ≤ d := Nat.le_of_dvd hd ⟨k, hk⟩
      have hr := Nat.mod_lt m hd
      have hsplit : m + e = m % d + e + d * (m / d) := by
        have := Nat.mod_add_div m d
        omega
      by_cases hfits : m % d + e < d
      · rw [hsplit, Nat.add_mul_mod_self_left, Nat.add_mul_div_left _ _ hd, Nat.mod_eq_of_lt hfits,
          Nat.div_eq_of_lt hfits]
        have := ih h.tail he (m % d)
        omega
      · -- The pieces below `d` are exchanged for one `d`; what is left is below `e`.
        have hleft : m % d + e - d < e := by omega
        have hback : m % d + e = (m % d + e - d) + d := by omega
        have hdiv : (m + e) / d = m / d + 1 := by
          rw [hsplit, Nat.add_mul_div_left _ _ hd, hback, Nat.add_div_right _ hd,
            Nat.div_eq_of_lt (by omega)]
          omega
        have hmod : (m + e) % d = m % d + e - d := by
          rw [hsplit, Nat.add_mul_mod_self_left, hback, Nat.add_mod_right, Nat.mod_eq_of_lt (by omega)]
          omega
        have hk' : 0 < k := by
          rcases Nat.eq_zero_or_pos k with rfl | hk'
          · omega
          · exact hk'
        have hmore : m % d = (m % d + e - d) + e * (k - 1) := by
          have : e * k = e * (k - 1) + e := by
            rw [← Nat.mul_succ, Nat.succ_eq_add_one, Nat.sub_add_cancel hk']
          omega
        have hfewer := change_length_mul_add h.tail he hleft (k - 1)
        rw [← hmore] at hfewer
        rw [hdiv, hmod]
        omega

/-! ### Pieces -/

/-- Where any pieces give the amount, the greedy change does. -/
theorem rest_sum (h : IsLadder ds) {l : List Nat} (hl : ∀ e ∈ l, e ∈ ds) : rest ds l.sum = 0 := by
  induction l with
  | nil => exact rest_zero ds
  | cons e l ih =>
    rw [List.sum_cons, Nat.add_comm, rest_add h (hl e List.mem_cons_self)]
    exact ih fun e' he' => hl e' (List.mem_cons_of_mem _ he')

/-- No pieces are fewer. -/
theorem change_least (h : IsLadder ds) {l : List Nat} (hl : ∀ e ∈ l, e ∈ ds) :
    (change ds l.sum).length ≤ l.length := by
  induction l with
  | nil => exact Nat.le_of_eq (congrArg List.length (change_zero ds))
  | cons e l ih =>
    have hone := change_length_add h (hl e List.mem_cons_self) l.sum
    have hrest := ih fun e' he' => hl e' (List.mem_cons_of_mem _ he')
    rw [List.sum_cons, Nat.add_comm, List.length_cons]
    omega

end StshProtocol.Foundation.Ladder
