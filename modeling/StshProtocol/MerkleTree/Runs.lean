import StshProtocol.MerkleTree.Incremental
import StshProtocol.Foundation.Except

/-! Runs of the tree canister.

A run installs the canister and then takes appends, singly or in batches, and upgrades.
What it has accepted is a list of leaves, and everything the canister holds is a
function of that list (`Holds`): one more leaf extends it (`Holds.appendLeaf`), and an
upgrade derives the same counters again (`Holds.upgrade`). -/
namespace StshProtocol.MerkleTree
open Foundation ShieldedPool BinaryTree Handler

inductive Call where
  | appendCommitment (commitment encryptedPayload : Bytes)
  | appendCommitments (items : List (Bytes × Bytes))
  | upgrade

structure Message where
  caller : Principal
  call : Call

inductive Answer where
  | index (r : Except String Nat)
  | indices (r : Except String (List Nat))
  | done
  | trapped (t : Trap)

/-- The message ends: what it wrote is committed, unless it trapped. -/
def respond {α : Type} (reply : Except String α → Answer) (s : MerkleState)
    (r : Except Trap (Except String α × MerkleState)) : Answer × MerkleState :=
  match r with
  | .ok (a, t) => (reply a, t)
  | .error trap => (.trapped trap, s)

variable (H : Bytes32 → Bytes32 → Bytes32)

def step (m : Message) (s : MerkleState) : Answer × MerkleState :=
  match m.call with
  | .appendCommitment commitment payload =>
    respond .index s ((appendCommitment H m.caller commitment payload).exec s)
  | .appendCommitments items => respond .indices s ((appendCommitments H m.caller items).exec s)
  | .upgrade => respond (fun _ => .done) s (MerkleTree.upgrade.exec s)

/-- The leaves an answer accepts: those of its call, if it answers indices. -/
def accepted : Call → Answer → List Bytes32
  | .appendCommitment commitment _, .index (.ok _) => [hash32 commitment]
  | .appendCommitments items, .indices (.ok _) => items.map fun item => hash32 item.1
  | _, _ => []

/-- The leaves accepted so far, and the state they led to. -/
inductive Run (pool : Principal) : List Bytes32 → MerkleState → Prop where
  | installed : Run pool [] (init H pool)
  | step {leaves : List Bytes32} {s : MerkleState} (run : Run pool leaves s) (m : Message) :
      Run pool (leaves ++ accepted m.call (step H m s).1) (step H m s).2

/-! ### What the canister holds -/

/-- Some leaves were accepted, and the maps and the counters are theirs. -/
structure Holds (pool : Principal) (leaves : List Bytes32) (s : MerkleState) : Prop where
  count : s.leafCount = leaves.length
  capacity : leaves.length ≤ maxTreeLeaves
  rootIndex : s.rootIndex = leaves.length + 1
  configured : s.poolCanister = some pool
  cell : s.poolRef = some pool
  leafAt : ∀ i : Nat, s.commitments[i]? = leaves[i]?
  size : s.commitments.size = leaves.length
  nodes : Exact H leaves s.treeNodes
  roots : ∀ k ≤ leaves.length, leaves.length < k + rootHistorySize →
    s.rootHistory[k % rootHistorySize]? = some (fullRoot H (leaves.take k))
  slots : ∀ k, s.rootHistory.contains k = true ↔ k < min (leaves.length + 1) rootHistorySize
  occupied : s.rootHistory.size = min (leaves.length + 1) rootHistorySize

variable {H} {pool : Principal} {leaves : List Bytes32} {s t : MerkleState}

theorem fullRoot_nil : fullRoot H [] = zeroValue H treeDepth := by
  rw [zeroValue_eq_blank]
  exact node_row_blank (Nat.zero_le _)

theorem holds_init : Holds H pool [] (init H pool) where
  count := rfl
  capacity := Nat.zero_le _
  rootIndex := rfl
  configured := rfl
  cell := rfl
  leafAt := fun i => by
    show (∅ : StableMap Nat Bytes32)[i]? = _
    simp
  size := Std.ExtTreeMap.size_empty
  nodes := exact_empty
  roots := fun k hk _ => by
    obtain rfl : k = 0 := Nat.le_zero.1 hk
    show ((∅ : StableMap Nat Bytes32).insert 0 (zeroValue H treeDepth))[0]? = _
    rw [StableMap.get_insert, if_pos rfl]
    exact congrArg some fullRoot_nil.symm
  slots := fun k => by
    show ((∅ : StableMap Nat Bytes32).insert 0 (zeroValue H treeDepth)).contains k = true ↔ _
    rw [StableMap.contains_iff]
    simp only [StableMap.get_insert]
    by_cases hk : 0 = k
    · simp [← hk, rootHistorySize]
    · simp [hk, rootHistorySize]
      omega
  occupied := by
    show ((∅ : StableMap Nat Bytes32).insert 0 (zeroValue H treeDepth)).size = _
    rw [Std.ExtTreeMap.size_insert]
    simp [rootHistorySize]

/-! ### One leaf -/

/-- Storing a root fills the next slot of the ring. -/
theorem slots_insert {m : StableMap Nat Bytes32} {n : Nat} {root : Bytes32}
    (hslots : ∀ k, m.contains k = true ↔ k < min n rootHistorySize) (k : Nat) :
    (m.insert (n % rootHistorySize) root).contains k = true ↔ k < min (n + 1) rootHistorySize := by
  rw [StableMap.contains_iff]
  simp only [StableMap.get_insert]
  have hpos : n % rootHistorySize < rootHistorySize := Nat.mod_lt _ (by decide)
  by_cases hk : n % rootHistorySize = k
  · simp only [hk, if_true, Option.some.injEq, exists_eq', true_iff]
    have hle := Nat.mod_le n rootHistorySize
    omega
  · rw [if_neg hk, ← StableMap.contains_iff, hslots]
    rcases Nat.lt_or_ge n rootHistorySize with hlt | hge
    · rw [Nat.mod_eq_of_lt hlt] at hk
      omega
    · omega

theorem occupied_insert {m : StableMap Nat Bytes32} {n : Nat} {root : Bytes32}
    (hslots : ∀ k, m.contains k = true ↔ k < min n rootHistorySize)
    (hsize : m.size = min n rootHistorySize) :
    (m.insert (n % rootHistorySize) root).size = min (n + 1) rootHistorySize := by
  rw [Std.ExtTreeMap.size_insert, hsize]
  have hpos : n % rootHistorySize < rootHistorySize := Nat.mod_lt _ (by decide)
  rcases Nat.lt_or_ge n rootHistorySize with hlt | hge
  · rw [if_neg]
    · omega
    · rw [hslots, Nat.mod_eq_of_lt hlt]
      omega
  · rw [if_pos]
    · omega
    · rw [hslots]
      omega

/-- Within the ring, the slots of two roots differ. -/
theorem slot_ne {k n : Nat} (hk : k < n) (hn : n < k + rootHistorySize) :
    n % rootHistorySize ≠ k % rootHistorySize := by
  rw [rootHistorySize] at *
  omega

theorem Holds.appendLeaf (h : Holds H pool leaves s) (hcap : leaves.length < maxTreeLeaves)
    (leaf : Bytes32 × Bytes) : Holds H pool (leaves ++ [leaf.1]) (appendLeaf H leaf s) := by
  obtain ⟨hroot, hnodes⟩ := h.nodes.updateTree leaf.1 hcap
  have hlen : (leaves ++ [leaf.1]).length = leaves.length + 1 := by simp
  refine ⟨?_, ?_, ?_, h.configured, h.cell, fun i => ?_, ?_, ?_, fun k hk hring => ?_, fun k => ?_, ?_⟩
  · show s.leafCount + 1 = _
    rw [h.count, hlen]
  · rw [hlen]
    exact hcap
  · show s.rootIndex + 1 = _
    rw [h.rootIndex, hlen]
  · show (s.commitments.insert s.leafCount leaf.1)[i]? = _
    rw [StableMap.get_insert, h.count]
    split
    · next heq =>
      rw [← heq, List.getElem?_concat_length]
    · next hne =>
      rw [h.leafAt]
      rcases Nat.lt_or_ge i leaves.length with hlt | hge
      · rw [List.getElem?_append_left hlt]
      · rw [List.getElem?_eq_none hge, List.getElem?_eq_none]
        rw [hlen]
        omega
  · show (s.commitments.insert s.leafCount leaf.1).size = _
    rw [Std.ExtTreeMap.size_insert, if_neg, h.size, hlen]
    intro hmem
    obtain ⟨v, hv⟩ := StableMap.contains_iff.1 hmem
    rw [h.leafAt, h.count, List.getElem?_eq_none (Nat.le_refl _)] at hv
    exact nomatch hv
  · show Exact H _ (updateTree H s.treeNodes s.leafCount leaf.1).nodes
    rw [h.count]
    exact hnodes
  · show (s.rootHistory.insert (s.rootIndex % rootHistorySize)
      (updateTree H s.treeNodes s.leafCount leaf.1).current)[k % rootHistorySize]? = _
    rw [hlen] at hk hring
    rw [StableMap.get_insert, h.rootIndex, h.count, hroot]
    rcases Nat.lt_or_eq_of_le hk with hlt | rfl
    · rw [if_neg (slot_ne hlt hring), h.roots k (Nat.le_of_lt_succ hlt) (by omega),
        List.take_append_of_le_length (Nat.le_of_lt_succ hlt)]
    · rw [if_pos rfl, List.take_of_length_le (Nat.le_of_eq hlen)]
  · show (s.rootHistory.insert (s.rootIndex % rootHistorySize) _).contains k = true ↔ _
    rw [h.rootIndex, hlen]
    exact slots_insert h.slots k
  · show (s.rootHistory.insert (s.rootIndex % rootHistorySize) _).size = _
    rw [h.rootIndex, hlen]
    exact occupied_insert h.slots h.occupied

/-! ### One message -/

theorem readOnly_assertPool (caller : Principal) : (assertPool caller).ReadOnly :=
  (readOnly_read _).bind fun configured => by
    cases configured with
    | none => exact readOnly_trap _
    | some pool => exact readOnly_assert _ _

/-- Either append answers an error before it has written anything. -/
theorem atomic_appendCommitment (caller : Principal) (commitment payload : Bytes) :
    (appendCommitment H caller commitment payload).Atomic :=
  (readOnly_assertPool caller).bind_atomic fun _ =>
    (readOnly_lift _).bind_atomic fun _ =>
      (readOnly_read _).bind_atomic fun _ =>
        (readOnly_lift _).bind_atomic fun _ =>
          ((sure_write _).bind fun _ => sure_pure _).atomic

theorem sure_appendLeaves (validated : List (Bytes32 × Bytes)) : (appendLeaves H validated).Sure := by
  induction validated with
  | nil => exact sure_pure _
  | cons leaf rest ih =>
    exact (sure_read _).bind fun _ => (sure_write _).bind fun _ => ih.bind fun _ => sure_pure _

theorem atomic_appendCommitments (caller : Principal) (items : List (Bytes × Bytes)) :
    (appendCommitments H caller items).Atomic :=
  (readOnly_assertPool caller).bind_atomic fun _ =>
    (readOnly_demand _ _).bind_atomic fun _ =>
      (readOnly_read _).bind_atomic fun _ =>
        (readOnly_lift _).bind_atomic fun _ =>
          (readOnly_lift _).bind_atomic fun validated => (sure_appendLeaves validated).atomic

theorem assertPool_ok_iff {caller : Principal} {u : Unit} :
    (assertPool caller).exec s = .ok (.ok u, t) ↔ s.poolCanister = some caller ∧ t = s := by
  simp only [assertPool, bind_ok_iff, read_ok_iff, expect_ok_iff, assert_ok_iff, and_assoc,
    exists_and_left, exists_eq_left]
  constructor
  · rintro ⟨pool, hpool, rfl, rfl⟩
    exact ⟨hpool, rfl⟩
  · rintro ⟨hpool, rfl⟩
    exact ⟨caller, hpool, rfl, rfl⟩

theorem validateItem_ok {item : Bytes × Bytes} {leaf : Bytes32 × Bytes}
    (h : validateItem item = .ok leaf) : leaf = (hash32 item.1, item.2) := by
  unfold validateItem validateCommitmentBytes at h
  split at h
  · exact nomatch h
  · split at h
    · exact nomatch h
    · simp only [bind, Except.bind] at h
      split at h
      · exact nomatch h
      · exact (Except.ok.inj h).symm

theorem validateItems_ok {items : List (Bytes × Bytes)} {validated : List (Bytes32 × Bytes)}
    (h : items.mapM validateItem = .ok validated) :
    validated.map Prod.fst = items.map fun item => hash32 item.1 := by
  induction items generalizing validated with
  | nil =>
    cases h
    rfl
  | cons item items ih =>
    rw [List.mapM_cons] at h
    obtain ⟨leaf, hleaf, h⟩ := bind_ok h
    obtain ⟨rest, hrest, h⟩ := bind_ok h
    cases h
    rw [List.map_cons, List.map_cons, ih hrest, validateItem_ok hleaf]

theorem ensureCapacity_ok {leafCount batchLen : Nat}
    (h : ensureCapacityForAppend leafCount batchLen = .ok ()) :
    leafCount + batchLen ≤ maxTreeLeaves := by
  unfold ensureCapacityForAppend at h
  split at h
  · next hfit => exact hfit.2
  · exact nomatch h

theorem Holds.appendCommitment {caller : Principal} {commitment payload : Bytes} {index : Nat}
    (h : Holds H pool leaves s)
    (hok : (appendCommitment H caller commitment payload).exec s = .ok (.ok index, t)) :
    Holds H pool (leaves ++ [hash32 commitment]) t := by
  simp only [MerkleTree.appendCommitment, assertPool_ok_iff, bind_ok_iff, read_ok_iff, lift_ok_iff,
    write_ok_iff, pure_ok_iff, and_assoc, exists_and_left, exists_eq_left, exists_const] at hok
  obtain ⟨-, leaf, hleaf, _, hcap, -, rfl⟩ := hok
  have hroom := ensureCapacity_ok hcap
  rw [h.count] at hroom
  have hnext := h.appendLeaf hroom leaf
  rw [validateItem_ok hleaf] at hnext ⊢
  exact hnext

theorem Holds.appendLeaves {validated : List (Bytes32 × Bytes)} {indices : List Nat}
    (h : Holds H pool leaves s) (hcap : leaves.length + validated.length ≤ maxTreeLeaves)
    (hok : (appendLeaves H validated).exec s = .ok (.ok indices, t)) :
    Holds H pool (leaves ++ validated.map Prod.fst) t := by
  induction validated generalizing leaves s indices with
  | nil =>
    cases hok
    rw [List.map_nil, List.append_nil]
    exact h
  | cons leaf rest ih =>
    simp only [MerkleTree.appendLeaves, bind_ok_iff, read_ok_iff, write_ok_iff, pure_ok_iff,
      and_assoc, exists_and_left, exists_eq_left, exists_const] at hok
    obtain ⟨indices', u, hrest, -, rfl⟩ := hok
    rw [List.length_cons] at hcap
    have hnext := ih (h.appendLeaf (by omega) leaf)
      (by rw [List.length_append, List.length_singleton]; omega) hrest
    rw [List.append_assoc] at hnext
    exact hnext

theorem Holds.appendCommitments {caller : Principal} {items : List (Bytes × Bytes)}
    {indices : List Nat} (h : Holds H pool leaves s)
    (hok : (appendCommitments H caller items).exec s = .ok (.ok indices, t)) :
    Holds H pool (leaves ++ items.map fun item => hash32 item.1) t := by
  simp only [MerkleTree.appendCommitments, assertPool_ok_iff, bind_ok_iff, read_ok_iff,
    demand_ok_iff, lift_ok_iff, and_assoc, exists_and_left, exists_eq_left, exists_const] at hok
  obtain ⟨-, -, _, hcap, validated, hvalid, hok⟩ := hok
  have hmap := validateItems_ok hvalid
  have hlen : validated.length = items.length := by
    rw [← List.length_map Prod.fst, hmap, List.length_map]
  have hroom := ensureCapacity_ok hcap
  rw [h.count, ← hlen] at hroom
  rw [← hmap]
  exact h.appendLeaves hroom hok

/-- An upgrade does not trap, and the counters it derives are those the heap had. -/
theorem Holds.upgrade (h : Holds H pool leaves s) : upgrade.exec s = .ok (.ok (), s) := by
  have htail : leaves.length = 0 ∨ s.commitments.contains (leaves.length - 1) = true := by
    rcases Nat.eq_zero_or_pos leaves.length with h0 | hpos
    · exact .inl h0
    · have hlt : leaves.length - 1 < leaves.length := by omega
      exact .inr (StableMap.contains_iff.2 ⟨_, (h.leafAt _).trans (List.getElem?_eq_getElem hlt)⟩)
  have hextra : s.commitments.contains leaves.length = false := by
    rw [Bool.eq_false_iff]
    intro hmem
    obtain ⟨v, hv⟩ := StableMap.contains_iff.1 hmem
    rw [h.leafAt, List.getElem?_eq_none (Nat.le_refl _)] at hv
    exact nomatch hv
  have hround : {s with poolRef := some pool
                        leafCount := leaves.length
                        rootIndex := leaves.length + 1
                        poolCanister := some pool} = s :=
    MerkleState.ext rfl rfl rfl rfl h.cell.symm h.count.symm h.rootIndex.symm h.configured.symm
  simp only [MerkleTree.upgrade, postUpgrade, reboot, bind_ok_iff, write_ok_iff, read_ok_iff,
    expect_ok_iff, assert_ok_iff, and_assoc, exists_and_left, exists_eq_left, exists_const, h.cell,
    h.size, h.occupied, Option.some.injEq, exists_eq_left', htail, hextra, true_and]
  exact hround.symm

/-- A message that errs before it writes accepts nothing and changes nothing. -/
theorem Holds.respond {α : Type} {x : Endpoint α} {reply : Except String α → Answer}
    (h : Holds H pool leaves s) (hx : x.Atomic) (leavesOf : Answer → List Bytes32)
    (htrap : ∀ r, leavesOf (.trapped r) = []) (herr : ∀ e, leavesOf (reply (.error e)) = [])
    (hok : ∀ a t, x.exec s = .ok (.ok a, t) → Holds H pool (leaves ++ leavesOf (reply (.ok a))) t) :
    Holds H pool (leaves ++ leavesOf (respond reply s (x.exec s)).1)
      (respond reply s (x.exec s)).2 := by
  match hr : x.exec s with
  | .error r =>
    show Holds H pool (leaves ++ leavesOf (.trapped r)) s
    rw [htrap, List.append_nil]
    exact h
  | .ok (.error e, t) =>
    show Holds H pool (leaves ++ leavesOf (reply (.error e))) t
    rw [herr, List.append_nil, hx s e t hr]
    exact h
  | .ok (.ok a, t) => exact hok a t hr

theorem Holds.step (h : Holds H pool leaves s) (m : Message) :
    Holds H pool (leaves ++ accepted m.call (MerkleTree.step H m s).1) (MerkleTree.step H m s).2 := by
  obtain ⟨caller, call⟩ := m
  cases call with
  | appendCommitment commitment payload =>
    exact h.respond (atomic_appendCommitment _ _ _) (accepted (.appendCommitment commitment payload))
      (fun _ => rfl) (fun _ => rfl) fun _ _ hok => h.appendCommitment hok
  | appendCommitments items =>
    exact h.respond (atomic_appendCommitments _ _) (accepted (.appendCommitments items))
      (fun _ => rfl) (fun _ => rfl) fun _ _ hok => h.appendCommitments hok
  | upgrade =>
    show Holds H pool (leaves ++ accepted .upgrade (MerkleTree.respond _ s (MerkleTree.upgrade.exec s)).1)
      (MerkleTree.respond _ s (MerkleTree.upgrade.exec s)).2
    rw [h.upgrade]
    show Holds H pool (leaves ++ []) s
    rw [List.append_nil]
    exact h

theorem Run.holds (run : Run H pool leaves s) : Holds H pool leaves s := by
  induction run with
  | installed => exact holds_init
  | step _ m ih => exact ih.step m

/-! ### The full tree -/

/-- The canister holds the complete tree over the leaves: its leaves, its last root, the
roots still in the ring, each of the tree at its time, and the nodes with a leaf below
them, each with the hash of its subtree when the last leaf below it had been appended. -/
structure FullTree (H : Bytes32 → Bytes32 → Bytes32) (leaves : List Bytes32) (s : MerkleState) :
    Prop where
  capacity : leaves.length ≤ maxTreeLeaves
  leafAt : ∀ i : Nat, s.commitments[i]? = leaves[i]?
  root : currentRoot H s = fullRoot H leaves
  roots : ∀ k ≤ leaves.length, leaves.length < k + rootHistorySize →
    s.rootHistory[k % rootHistorySize]? = some (fullRoot H (leaves.take k))
  nodes : ∀ key v, s.treeNodes[key]? = some v ↔
    ∃ level i, level < treeDepth ∧ i * 2 ^ level < leaves.length ∧ key = encodeNodeKey level i ∧
      v = nodeOf H (leaves.take ((i + 1) * 2 ^ level)) level i

/-- Whatever appends and upgrades the canister took, and up to the last leaf, its
incremental tree is the full one. -/
theorem tree_is_full (run : Run H pool leaves s) : FullTree H leaves s := by
  have h := run.holds
  refine ⟨h.capacity, h.leafAt, ?_, h.roots, fun key v => (h.nodes key v).trans ?_⟩
  · rw [currentRoot, h.rootIndex, Nat.add_sub_cancel,
      h.roots _ (Nat.le_refl _) (Nat.lt_add_of_pos_right (by decide)), Option.getD_some,
      List.take_length]
  · have hold : ∀ level i, nodeOf H (leaves.take ((i + 1) * 2 ^ level)) level i =
        nodeOf H leaves level i := fun _ _ => node_take
    simp only [hold]

/-- One canonical commitment, an upgrade, and the same commitment again. -/
theorem tree_is_full_twice :
    let H : Bytes32 → Bytes32 → Bytes32 := fun a b => a + 3 * b + 1
    let append : Message := ⟨1, .appendCommitment (List.replicate 32 1) []⟩
    let first := (step H append (init H 1)).2
    let upgraded := (step H ⟨0, .upgrade⟩ first).2
    FullTree H (List.replicate 2 (hash32 (List.replicate 32 1))) (step H append upgraded).2 := by
  intro H append first upgraded
  have hinstalled : Run H 1 [] (init H 1) := .installed
  have hrun := (hinstalled.step append).step ⟨0, .upgrade⟩
  exact tree_is_full (hrun.step append)

end StshProtocol.MerkleTree
