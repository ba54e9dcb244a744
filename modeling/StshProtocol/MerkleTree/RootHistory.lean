import StshProtocol.MerkleTree.Runs

/-! The root history as its readers see it.

The ring is addressed by a counter that an upgrade derives again from the number of leaves,
and the empty tree's root takes a place of its own in it: after `n` leaves the ring holds
the roots numbered from `n + 1 - min 100 (n + 1)` to `n`. -/
namespace StshProtocol.MerkleTree
open Foundation ShieldedPool BinaryTree Handler

/-! ### Queries -/

variable (H : Bytes32 → Bytes32 → Bytes32)

structure ScanHead where
  leafCount : Nat
  root : Bytes
  deriving DecidableEq, Repr

/-- Both fields of one state. -/
def getScanHead (s : MerkleState) : ScanHead := ⟨s.leafCount, hashBytes (currentRoot H s)⟩

/-- The root after the leaf `index`, while the ring has it. -/
def getRootAtIndex (index : Nat) (s : MerkleState) : Option Bytes :=
  if s.leafCount ≤ index then
    none
  else if index < s.leafCount - rootHistorySize then
    none
  else
    (s.rootHistory[(index + 1) % rootHistorySize]?).map hashBytes

/-- Every slot of the ring is looked at. -/
def isValidAnchor (root : Bytes) (s : MerkleState) : Bool :=
  if root.length ≠ 32 then
    false
  else
    (List.range rootHistorySize).any fun i => s.rootHistory[i]? == some (hash32 root)

/-! ### The ring -/

section Ring
variable {H} {pool : Principal} {leaves : List Bytes32} {s : MerkleState}

/-- The number of the root in an occupied slot: the latest that falls there. -/
theorem root_of_slot {n i : Nat} (h : i < min (n + 1) rootHistorySize) :
    ∃ k ≤ n, n < k + rootHistorySize ∧ k % rootHistorySize = i := by
  rw [rootHistorySize] at *
  refine ⟨n - (n - i) % 100, Nat.sub_le _ _, ?_, ?_⟩ <;> omega

theorem Holds.slot_iff (h : Holds H pool leaves s) {i : Nat} {root : Bytes32} :
    s.rootHistory[i]? = some root ↔
      ∃ k ≤ leaves.length, leaves.length < k + rootHistorySize ∧ k % rootHistorySize = i ∧
        root = fullRoot H (leaves.take k) := by
  constructor
  · intro hroot
    obtain ⟨k, hk, hring, rfl⟩ := root_of_slot ((h.slots i).1 (StableMap.contains_iff.2 ⟨_, hroot⟩))
    exact ⟨k, hk, hring, rfl, Option.some.inj (hroot.symm.trans (h.roots k hk hring))⟩
  · rintro ⟨k, hk, hring, rfl, rfl⟩
    exact h.roots k hk hring

theorem isValidAnchor_iff {r : Bytes} :
    isValidAnchor r s = true ↔
      r.length = 32 ∧ ∃ i < rootHistorySize, s.rootHistory[i]? = some (hash32 r) := by
  unfold isValidAnchor
  by_cases hr : r.length = 32
  · rw [if_neg (not_not.2 hr), List.any_eq_true]
    simp only [List.mem_range, beq_iff_eq, hr, true_and]
  · simp only [ne_eq, hr, not_false_eq_true, if_true, Bool.false_eq_true, false_and]

end Ring

/-! ### What the readers are told -/

/-- The upgrade and the three readers, after the given leaves. -/
structure ExactHistory (leaves : List Bytes32) (s : MerkleState) : Prop where
  upgrade : upgrade.exec s = .ok (.ok (), s)
  scanHead : getScanHead H s = ⟨leaves.length, hashBytes (fullRoot H leaves)⟩
  rootAt : ∀ i, getRootAtIndex i s =
    if leaves.length - 100 ≤ i ∧ i < leaves.length then
      some (hashBytes (fullRoot H (leaves.take (i + 1))))
    else none
  anchor : ∀ r, isValidAnchor r s = true ↔
    ∃ k, leaves.length + 1 - min 100 (leaves.length + 1) ≤ k ∧ k ≤ leaves.length ∧
      r = hashBytes (fullRoot H (leaves.take k))

variable {H} {pool : Principal} {leaves : List Bytes32} {s : MerkleState}

/-- Whatever appends and upgrades the canister took, its root history is that of its
leaves. -/
theorem root_history_exact (run : Run H pool leaves s) : ExactHistory H leaves s := by
  have h := run.holds
  refine ⟨h.upgrade, ?_, fun i => ?_, fun r => ?_⟩
  · rw [getScanHead, (tree_is_full run).root, h.count]
  · rw [getRootAtIndex, h.count, rootHistorySize]
    by_cases hi : leaves.length ≤ i
    · rw [if_pos hi, if_neg (by omega)]
    · rw [if_neg hi]
      by_cases hold : i < leaves.length - 100
      · rw [if_pos hold, if_neg (by omega)]
      · have hroot := h.roots (i + 1) (by omega) (by rw [rootHistorySize]; omega)
        rw [if_neg hold, if_pos (by omega), ← rootHistorySize, hroot, Option.map_some]
  · rw [isValidAnchor_iff]
    constructor
    · rintro ⟨hlen, i, -, hi⟩
      obtain ⟨k, hk, hring, -, hroot⟩ := h.slot_iff.1 hi
      rw [rootHistorySize] at hring
      exact ⟨k, by omega, hk, by rw [← hroot, hashBytes_hash32 hlen]⟩
    · rintro ⟨k, hring, hk, rfl⟩
      refine ⟨length_hashBytes _, k % rootHistorySize, Nat.mod_lt _ (by decide), ?_⟩
      rw [hash32_hashBytes]
      exact h.roots k hk (by rw [rootHistorySize]; omega)

/-- A leaf, an upgrade, and a second leaf. -/
theorem root_history_exact_twice :
    let H : Bytes32 → Bytes32 → Bytes32 := fun a b => a + 3 * b + 1
    let append : Message := ⟨1, .appendCommitment (List.replicate 32 1) []⟩
    let first := (step H append (init H 1)).2
    let upgraded := (step H ⟨0, .upgrade⟩ first).2
    ExactHistory H (List.replicate 2 (hash32 (List.replicate 32 1))) (step H append upgraded).2 := by
  intro H append first upgraded
  have hinstalled : Run H 1 [] (init H 1) := .installed
  have hrun := (hinstalled.step append).step ⟨0, .upgrade⟩
  exact root_history_exact (hrun.step append)

end StshProtocol.MerkleTree
