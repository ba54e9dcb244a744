import StshProtocol.Foundation.ChangingWalk
import StshProtocol.Foundation.GrowingWalk
import StshProtocol.ShieldedPool.State

/-! What a caller's listing of its active operations is.

The pool lists the caller's rows of its active index page by page, each page as the records are when it
is asked. A page is a page of the caller's own keys, with the records that are still there. -/
namespace StshProtocol.ShieldedPool
open Foundation

def maxRecoveryPage : Nat := 100

structure ActiveDepositsPage where
  deposits : List PendingDeposit
  nextCursor : Option Bytes32

structure ActiveSpendsPage where
  spends : List PendingSpend
  nextCursor : Option SpendId

/-- The ids of the rows between two bounds, the lower one left out if it is a cursor. -/
def rangeOf {κ : Type} [Ord κ] (rows : List (Principal × κ)) (caller : Principal) (lo hi : κ)
    (startAfter : Option κ) : List κ :=
  let order : Ord (Principal × κ) := lexOrd
  (rows.filter fun row =>
    (startAfter.elim (order.compare (caller, lo) row).isLE fun c => order.compare (caller, c) row == .lt) &&
      (order.compare row (caller, hi)).isLE).map Prod.snd

/-- `limit.clamp(1, MAX_RECOVERY_PAGE)`. -/
def clampPage (limit : Nat) : Nat := max 1 (min limit maxRecoveryPage)

/-- Another full page may exist if this one is filled. -/
def nextCursorOf {κ : Type} (page : Nat) (keys : List κ) : Option κ :=
  if keys.length = page then keys.getLast? else none

def listMyActiveDeposits (b : DepositBook) (caller : Principal) (startAfter : Option Bytes32) (limit : Nat) :
    ActiveDepositsPage :=
  if caller = Principal.anonymous then ⟨[], none⟩
  else
    let page := clampPage limit
    let keys := (rangeOf b.active.keys caller 0 (BitVec.allOnes 256) startAfter).take page
    ⟨keys.filterMap fun c => b.pending[c]?, nextCursorOf page keys⟩

def listMyActiveSpends (b : SpendBook) (caller : Principal) (startAfter : Option SpendId) (limit : Nat) :
    ActiveSpendsPage :=
  if caller = Principal.anonymous then ⟨[], none⟩
  else
    let page := clampPage limit
    let ids := (rangeOf b.active.keys caller 0 (BitVec.allOnes 64) startAfter).take page
    ⟨ids.filterMap fun id => b.pending[id]?, nextCursorOf page ids⟩

/-- The books of a pool that keeps its records under their own names. -/
structure ListedPool where
  deposits : DepositBook
  spends : SpendBook
  depositsKeyed : ∀ c (record : PendingDeposit), deposits.pending[c]? = some record → record.noteCommitment = c
  spendsKeyed : ∀ id (record : PendingSpend), spends.pending[id]? = some record → record.spendId = id

/-- The rows of one owner. -/
def ownRows {κ : Type} (rows : List (Principal × κ)) (caller : Principal) : List κ :=
  (rows.filter fun row => row.1 == caller).map Prod.snd

/-- The caller's active deposits, in order. -/
def ListedPool.depositKeys (p : ListedPool) (caller : Principal) : List Bytes32 :=
  if caller = Principal.anonymous then [] else ownRows p.deposits.active.keys caller

def ListedPool.spendKeys (p : ListedPool) (caller : Principal) : List SpendId :=
  if caller = Principal.anonymous then [] else ownRows p.spends.active.keys caller

/-! ### What a page is -/

section Rows
open ChangingWalk
variable {κ : Type} [Ord κ] {rows : List (Principal × κ)} {caller : Principal}
  {lo hi : κ}

/-- Between an owner's least and greatest key there are that owner's rows and no others. -/
theorem rangeOf_eq (hlo : ∀ k, (compare lo k).isLE = true) (hhi : ∀ k, (compare k hi).isLE = true)
    (startAfter : Option κ) : rangeOf rows caller lo hi startAfter = after (ownRows rows caller) startAfter := by
  rw [rangeOf, ownRows, after, List.filter_map, List.filter_filter]
  refine congrArg _ (List.filter_congr fun e _ => ?_)
  obtain ⟨o, k⟩ := e
  show ((startAfter.elim ((compare caller o).then (compare lo k)).isLE
      fun c => (compare caller o).then (compare c k) == .lt) &&
    ((compare o caller).then (compare k hi)).isLE) =
      ((startAfter.all fun c => compare c k == .lt) && (o == caller))
  by_cases ho : o = caller
  · subst ho
    rw [show compare o o = .eq from Std.ReflCmp.compare_self]
    cases startAfter with
    | none => simp [hlo k, hhi k]
    | some c => simp [hhi k]
  · have hother : (o == caller) = false := beq_eq_false_iff_ne.2 ho
    rw [hother, Bool.and_false]
    cases hcmp : compare o caller with
    | eq => exact absurd (Std.LawfulEqOrd.compare_eq_iff_eq.1 hcmp) ho
    | gt => exact Bool.and_false _
    | lt =>
      have hback : compare caller o = .gt := Std.OrientedCmp.gt_iff_lt.2 hcmp
      cases startAfter with
      | none => rw [hback]; rfl
      | some c => rw [hback]; rfl

/-- In an ordered map an owner's keys run upwards. -/
theorem ascending_ownRows (h : rows.Pairwise fun a b => lexOrd.compare a b = .lt) :
    Ascending (ownRows rows caller) := by
  refine List.pairwise_map.2 ((h.filter _).imp_of_mem fun {a b} ha hb hlt => ?_)
  have hfirst : a.1 = b.1 := (beq_iff_eq.1 (List.mem_filter.1 ha).2).trans
    (beq_iff_eq.1 (List.mem_filter.1 hb).2).symm
  have hthen : (compare a.1 b.1).then (compare a.2 b.2) = .lt := hlt
  rw [hfirst, show compare b.1 b.1 = .eq from Std.ReflCmp.compare_self] at hthen
  exact hthen

end Rows

section Books
open ChangingWalk
variable {p : ListedPool} {caller : Principal}

theorem compare_isLE {w : Nat} {j k : BitVec w} (h : j.toNat ≤ k.toNat) : (compare j k).isLE = true := by
  rw [show compare j k = compareOfLessAndEq j k from rfl, compareOfLessAndEq]
  by_cases hlt : j < k
  · rw [if_pos hlt]
    rfl
  · have heq : j = k := BitVec.eq_of_toNat_eq (Nat.le_antisymm h (Nat.le_of_not_lt hlt))
    rw [if_neg hlt, if_pos heq]
    rfl

theorem zero_le_compare {w : Nat} (k : BitVec w) : (compare 0 k).isLE = true :=
  compare_isLE (Nat.zero_le _)

theorem compare_le_ones {w : Nat} (k : BitVec w) : (compare k (BitVec.allOnes w)).isLE = true :=
  compare_isLE (by rw [BitVec.toNat_allOnes]; exact Nat.le_sub_one_of_lt k.isLt)

theorem ascending_depositKeys : Ascending (p.depositKeys caller) := by
  rw [ListedPool.depositKeys]
  split
  · exact List.Pairwise.nil
  · refine ascending_ownRows ?_
    rw [← GrowingWalk.keysAfter_none]
    exact GrowingWalk.keysAfter_sorted

theorem ascending_spendKeys : Ascending (p.spendKeys caller) := by
  rw [ListedPool.spendKeys]
  split
  · exact List.Pairwise.nil
  · refine ascending_ownRows ?_
    rw [← GrowingWalk.keysAfter_none]
    exact GrowingWalk.keysAfter_sorted

/-- The pool's page of deposits is a page of the caller's keys, with the records there are. -/
theorem listMyActiveDeposits_eq (startAfter : Option Bytes32) :
    listMyActiveDeposits p.deposits caller startAfter 100 =
      ⟨(page 100 (p.depositKeys caller) startAfter).filterMap fun c => p.deposits.pending[c]?,
        next 100 (page 100 (p.depositKeys caller) startAfter)⟩ := by
  rw [listMyActiveDeposits, ListedPool.depositKeys]
  by_cases h : caller = Principal.anonymous
  · rw [if_pos h, if_pos h]
    rfl
  · rw [if_neg h, if_neg h, rangeOf_eq zero_le_compare compare_le_ones]
    rfl

theorem listMyActiveSpends_eq (startAfter : Option SpendId) :
    listMyActiveSpends p.spends caller startAfter 100 =
      ⟨(page 100 (p.spendKeys caller) startAfter).filterMap fun id => p.spends.pending[id]?,
        next 100 (page 100 (p.spendKeys caller) startAfter)⟩ := by
  rw [listMyActiveSpends, ListedPool.spendKeys]
  by_cases h : caller = Principal.anonymous
  · rw [if_pos h, if_pos h]
    rfl
  · rw [if_neg h, if_neg h, rangeOf_eq zero_le_compare compare_le_ones]
    rfl

end Books
end StshProtocol.ShieldedPool
