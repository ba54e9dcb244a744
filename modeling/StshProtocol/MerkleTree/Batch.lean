import StshProtocol.MerkleTree.Runs

/-! A batch against single appends.

The two endpoints check and write each on their own: a batch asks for the capacity of all its
leaves before it looks at any of them. What either makes of the state is the same fold over the
checked leaves (`appendAll`), and what either refuses is the same: an item that does not pass its
check, or one leaf too many. -/
namespace StshProtocol.MerkleTree
open Foundation ShieldedPool Handler

variable (H : Bytes32 → Bytes32 → Bytes32)

/-- Single appends of the items in order, each a message of its own: the answers and the state they
leave. -/
def callSingly (caller : Principal) : List (Bytes × Bytes) → MerkleState → List Answer × MerkleState
  | [], s => ([], s)
  | item :: rest, s =>
    let first := step H ⟨caller, .appendCommitment item.1 item.2⟩ s
    let others := callSingly caller rest first.2
    (first.1 :: others.1, others.2)

/-- The checked leaves, appended in order. -/
def appendAll (validated : List (Bytes32 × Bytes)) (s : MerkleState) : MerkleState :=
  validated.foldl (fun s leaf => appendLeaf H leaf s) s

/-- The pool is known, and the tree is no fuller than it can be. -/
structure Ready (pool : Principal) (s : MerkleState) : Prop where
  configured : s.poolCanister = some pool
  capacity : s.leafCount ≤ maxTreeLeaves

variable {H} {pool caller : Principal} {leaves : List Bytes32} {s t : MerkleState}
  {items : List (Bytes × Bytes)} {validated : List (Bytes32 × Bytes)}

theorem Holds.ready (h : Holds H pool leaves s) : Ready pool s :=
  ⟨h.configured, h.count ▸ h.capacity⟩

theorem Ready.appendLeaf (h : Ready pool s) (hcap : s.leafCount < maxTreeLeaves)
    (leaf : Bytes32 × Bytes) : Ready pool (appendLeaf H leaf s) := ⟨h.configured, hcap⟩

theorem ensureCapacity_ok_iff {leafCount batchLen : Nat} {u : Unit} :
    ensureCapacityForAppend leafCount batchLen = .ok u ↔ leafCount + batchLen ≤ maxTreeLeaves := by
  have hbound : maxTreeLeaves ≤ u64Max := by decide
  unfold ensureCapacityForAppend
  by_cases hfit : leafCount + batchLen ≤ maxTreeLeaves
  · rw [if_pos ⟨Nat.le_trans hfit hbound, hfit⟩]
    simp only [hfit]
  · rw [if_neg fun h => hfit h.2]
    simp only [hfit, reduceCtorEq]

/-! ### What the endpoints answer -/

theorem appendCommitment_ok_iff {item : Bytes × Bytes} {index : Nat} (h : Ready pool s) :
    (appendCommitment H pool item.1 item.2).exec s = .ok (.ok index, t) ↔
      s.leafCount < maxTreeLeaves ∧ index = s.leafCount ∧
        ∃ leaf, validateItem item = .ok leaf ∧ t = appendLeaf H leaf s := by
  simp only [MerkleTree.appendCommitment, assertPool_ok_iff, bind_ok_iff, read_ok_iff, lift_ok_iff,
    write_ok_iff, pure_ok_iff, ensureCapacity_ok_iff, and_assoc, exists_and_left, exists_eq_left,
    exists_const, h.configured, true_and]
  constructor
  · rintro ⟨leaf, hleaf, hcap, hindex, ht⟩
    exact ⟨hcap, hindex, leaf, hleaf, ht⟩
  · rintro ⟨hcap, hindex, leaf, hleaf, ht⟩
    exact ⟨leaf, hleaf, hcap, hindex, ht⟩

theorem exec_appendLeaves : (appendLeaves H validated).exec s =
    .ok (.ok (List.range' s.leafCount validated.length), appendAll H validated s) := by
  induction validated generalizing s with
  | nil => rfl
  | cons leaf rest ih =>
    simp only [appendLeaves, bind_ok_iff, read_ok_iff, write_ok_iff, pure_ok_iff, and_assoc,
      exists_and_left, exists_eq_left, exists_const]
    exact ⟨_, _, ih, rfl, rfl⟩

theorem appendLeaves_ok_iff {indices : List Nat} :
    (appendLeaves H validated).exec s = .ok (.ok indices, t) ↔
      indices = List.range' s.leafCount validated.length ∧ t = appendAll H validated s := by
  rw [exec_appendLeaves, Except.ok.injEq, Prod.mk.injEq, Except.ok.injEq]
  exact and_congr eq_comm eq_comm

theorem appendCommitments_ok_iff {indices : List Nat} (h : Ready pool s) :
    (appendCommitments H pool items).exec s = .ok (.ok indices, t) ↔
      items.length ≤ maxBatchSize ∧ s.leafCount + items.length ≤ maxTreeLeaves ∧
        ∃ validated, items.mapM validateItem = .ok validated ∧
          indices = List.range' s.leafCount validated.length ∧ t = appendAll H validated s := by
  simp only [MerkleTree.appendCommitments, assertPool_ok_iff, bind_ok_iff, read_ok_iff,
    demand_ok_iff, lift_ok_iff, appendLeaves_ok_iff, ensureCapacity_ok_iff, and_assoc,
    exists_and_left, exists_eq_left, exists_const, h.configured, true_and]

/-- The pool's call does not trap. -/
theorem assertPool_no_trap {r : Trap} (h : Ready pool s) : (assertPool pool).exec s ≠ .error r := by
  have hok : (assertPool pool).exec s = .ok (.ok (), s) := assertPool_ok_iff.2 ⟨h.configured, rfl⟩
  rw [hok]
  exact nofun

theorem appendCommitment_no_trap {commitment payload : Bytes} {r : Trap} (h : Ready pool s) :
    (appendCommitment H pool commitment payload).exec s ≠ .error r := by
  simp only [MerkleTree.appendCommitment, bind_trap_iff, assertPool_no_trap h, lift_no_trap,
    read_no_trap, write_no_trap, pure_no_trap, ne_eq, or_false, and_false, exists_false,
    not_false_eq_true]

theorem appendCommitments_no_trap {r : Trap} (h : Ready pool s) :
    (appendCommitments H pool items).exec s ≠ .error r := by
  simp only [MerkleTree.appendCommitments, bind_trap_iff, assertPool_no_trap h, demand_no_trap,
    lift_no_trap, read_no_trap, exec_appendLeaves, reduceCtorEq, ne_eq, or_false, and_false,
    exists_false, not_false_eq_true]

/-- Anybody else's call traps. -/
theorem assertPool_traps (h : Ready pool s) (hcaller : caller ≠ pool) :
    (assertPool caller).exec s = .error .notPool := by
  simp only [assertPool, bind_trap_iff, read_ok_iff, expect_ok_iff, assert_trap_iff, h.configured,
    read_no_trap, expect_trap_iff, false_or, and_assoc, exists_and_left, exists_eq_left,
    exists_eq_left', Option.some.injEq, reduceCtorEq, hcaller, not_false_eq_true,
    and_self]

/-- What a message of the pool comes to: an answer, or an error that leaves the state as it was. -/
theorem respond_of_atomic {α : Type} {x : Endpoint α} (reply : Except String α → Answer)
    (hx : x.Atomic) (htrap : ∀ r, x.exec s ≠ .error r) :
    (∃ e, respond reply s (x.exec s) = (reply (.error e), s)) ∨
      ∃ a t, x.exec s = .ok (.ok a, t) ∧ respond reply s (x.exec s) = (reply (.ok a), t) := by
  match hr : x.exec s with
  | .error r => exact absurd hr (htrap r)
  | .ok (.error e, t) => exact .inl ⟨e, by rw [hx s e t hr, respond]⟩
  | .ok (.ok a, t) => exact .inr ⟨a, t, rfl, rfl⟩

/-- A single append answers the next index if its item passes the check and there is room, and errs
otherwise. -/
theorem step_appendCommitment (h : Ready pool s) (item : Bytes × Bytes) :
    (∃ leaf, validateItem item = .ok leaf ∧ s.leafCount < maxTreeLeaves ∧
        step H ⟨pool, .appendCommitment item.1 item.2⟩ s =
          (.index (.ok s.leafCount), appendLeaf H leaf s)) ∨
      ((∀ leaf, validateItem item = .ok leaf → maxTreeLeaves ≤ s.leafCount) ∧
        ∃ e, step H ⟨pool, .appendCommitment item.1 item.2⟩ s = (.index (.error e), s)) := by
  rcases respond_of_atomic .index (atomic_appendCommitment (H := H) pool item.1 item.2)
    (fun r => appendCommitment_no_trap h) with ⟨e, he⟩ | ⟨index, t, hok, hstep⟩
  · refine .inr ⟨fun leaf hleaf => ?_, e, he⟩
    by_contra hroom
    have hok := (appendCommitment_ok_iff (H := H) h).2 ⟨Nat.lt_of_not_le hroom, rfl, leaf, hleaf, rfl⟩
    rw [hok] at he
    exact nomatch he
  · obtain ⟨hroom, rfl, leaf, hleaf, rfl⟩ := (appendCommitment_ok_iff h).1 hok
    exact .inl ⟨leaf, hleaf, hroom, hstep⟩

/-! ### Single appends in order -/

theorem callSingly_take (n : Nat) :
    (callSingly H caller (items.take n) s).1 = (callSingly H caller items s).1.take n := by
  induction items generalizing n s with
  | nil => rw [List.take_nil, callSingly, List.take_nil]
  | cons item rest ih =>
    cases n with
    | zero => rfl
    | succ n =>
      rw [List.take_succ_cons, callSingly, callSingly, List.take_succ_cons]
      exact congrArg _ (ih n)

/-- If all items pass and there is room for them, the single appends make what the batch makes. -/
theorem callSingly_of_valid (h : Ready pool s) (hvalid : items.mapM validateItem = .ok validated)
    (hroom : s.leafCount + items.length ≤ maxTreeLeaves) :
    callSingly H pool items s =
      ((List.range' s.leafCount validated.length).map fun index => .index (.ok index),
        appendAll H validated s) := by
  induction items generalizing s validated with
  | nil =>
    cases hvalid
    rfl
  | cons item items ih =>
    rw [List.mapM_cons] at hvalid
    obtain ⟨leaf, hleaf, hvalid⟩ := bind_ok hvalid
    obtain ⟨rest, hrest, hvalid⟩ := bind_ok hvalid
    cases hvalid
    rw [List.length_cons] at hroom
    rcases step_appendCommitment (H := H) h item with ⟨leaf', hleaf', hlt, hstep⟩ | ⟨hfull, -⟩
    · obtain rfl := Except.ok.inj (hleaf.symm.trans hleaf')
      have hnext : s.leafCount + 1 + items.length ≤ maxTreeLeaves := by omega
      have htail := ih (h.appendLeaf (H := H) hlt leaf) hrest hnext
      rw [callSingly, hstep]
      simp only [htail]
      rfl
    · have := hfull leaf hleaf
      omega

/-- If none of the single appends errs, all items pass and there was room for them. -/
theorem valid_of_callSingly (h : Ready pool s)
    (hnone : ∀ e, Answer.index (.error e) ∉ (callSingly H pool items s).1) :
    (∃ validated, items.mapM validateItem = .ok validated) ∧
      s.leafCount + items.length ≤ maxTreeLeaves := by
  induction items generalizing s with
  | nil => exact ⟨⟨[], rfl⟩, h.capacity⟩
  | cons item items ih =>
    rcases step_appendCommitment (H := H) h item with ⟨leaf, hleaf, hlt, hstep⟩ | ⟨-, e, hstep⟩
    · rw [callSingly, hstep] at hnone
      obtain ⟨⟨rest, hrest⟩, hroom⟩ := ih (h.appendLeaf hlt leaf) fun e he =>
        hnone e (List.mem_cons_of_mem _ he)
      refine ⟨⟨leaf :: rest, ?_⟩, ?_⟩
      · rw [List.mapM_cons]
        exact bind_of_ok hleaf (bind_of_ok hrest rfl)
      · have hcount : (appendLeaf H leaf s).leafCount = s.leafCount + 1 := rfl
        rw [hcount] at hroom
        rw [List.length_cons]
        omega
    · rw [callSingly, hstep] at hnone
      exact absurd List.mem_cons_self (hnone e)

/-! ### The batch -/

/-- What a batch of the pool comes to, beside the single appends of its items. -/
structure BatchAgrees (H : Bytes32 → Bytes32 → Bytes32) (pool : Principal)
    (items : List (Bytes × Bytes)) (s : MerkleState) : Prop where
  /-- It errs and changes nothing, or it gives the next indices and makes what they make. -/
  whole : (∃ e, step H ⟨pool, .appendCommitments items⟩ s = (.indices (.error e), s)) ∨
    step H ⟨pool, .appendCommitments items⟩ s =
      (.indices (.ok (List.range' s.leafCount items.length)), (callSingly H pool items s).2) ∧
    (callSingly H pool items s).1 =
      (List.range' s.leafCount items.length).map fun index => .index (.ok index)
  /-- Up to the size of a batch, it errs if and only if some first few of them end in an error. -/
  errs : items.length ≤ maxBatchSize →
    ((∃ e, (step H ⟨pool, .appendCommitments items⟩ s).1 = .indices (.error e)) ↔
      ∃ n e, (callSingly H pool (items.take n) s).1.getLast? = some (.index (.error e)))
  /-- Nobody else gets as far. -/
  others : ∀ caller ≠ pool,
    step H ⟨caller, .appendCommitments items⟩ s = (.trapped .notPool, s)

theorem step_appendCommitments : step H ⟨caller, .appendCommitments items⟩ s =
    respond .indices s ((appendCommitments H caller items).exec s) := rfl

theorem length_validated (h : items.mapM validateItem = .ok validated) :
    validated.length = items.length := by
  rw [← List.length_map Prod.fst, validateItems_ok h, List.length_map]

/-- In every state of every run a batch is all of its single appends, or nothing. -/
theorem batch_agrees (run : Run H pool leaves s) (items : List (Bytes × Bytes)) :
    BatchAgrees H pool items s := by
  have h := run.holds.ready
  have hbatch := respond_of_atomic .indices (atomic_appendCommitments (H := H) pool items)
    (fun r => appendCommitments_no_trap (s := s) h)
  refine ⟨?_, fun hsize => ⟨?_, ?_⟩, fun caller hcaller => ?_⟩
  · rcases hbatch with he | ⟨indices, t, hok, hstep⟩
    · exact .inl he
    · obtain ⟨-, hroom, validated, hvalid, rfl, rfl⟩ := (appendCommitments_ok_iff h).1 hok
      rw [length_validated hvalid] at hstep
      have hsingly := callSingly_of_valid (H := H) h hvalid hroom
      rw [length_validated hvalid] at hsingly
      refine .inr ⟨?_, ?_⟩
      · rw [hsingly]
        exact hstep
      · rw [hsingly]
  · rintro ⟨e, he⟩
    obtain ⟨e', he'⟩ : ∃ e, Answer.index (.error e) ∈ (callSingly H pool items s).1 := by
      by_contra hnone
      obtain ⟨⟨validated, hvalid⟩, hroom⟩ := valid_of_callSingly h fun e he => hnone ⟨e, he⟩
      have hok := (appendCommitments_ok_iff (H := H) h).2 ⟨hsize, hroom, validated, hvalid, rfl, rfl⟩
      rw [step_appendCommitments, hok] at he
      exact nomatch he
    obtain ⟨n, hn⟩ := List.mem_iff_getElem?.1 he'
    refine ⟨n + 1, e', ?_⟩
    rw [callSingly_take, List.getLast?_take, if_neg (Nat.succ_ne_zero n), Nat.add_sub_cancel, hn]
    rfl
  · rintro ⟨n, e, he⟩
    rcases hbatch with ⟨e', he'⟩ | ⟨indices, t, hok, -⟩
    · exact ⟨e', congrArg Prod.fst he'⟩
    · obtain ⟨-, hroom, validated, hvalid, -, -⟩ := (appendCommitments_ok_iff h).1 hok
      rw [callSingly_take, callSingly_of_valid h hvalid hroom] at he
      obtain ⟨index, -, hindex⟩ := List.mem_map.1 (List.mem_of_mem_take (List.mem_of_getLast? he))
      exact nomatch hindex
  · have htrap : (appendCommitments H caller items).exec s = .error .notPool :=
      exec_bind_trap (assertPool_traps h hcaller)
    rw [step_appendCommitments, htrap]
    rfl

/-- A good item and a short one, offered to the tree just installed. -/
theorem batch_agrees_short :
    let H : Bytes32 → Bytes32 → Bytes32 := fun a b => a + 3 * b + 1
    BatchAgrees H 1 [(List.replicate 32 1, []), ([1], [])] (init H 1) := by
  intro H
  exact batch_agrees .installed _

end StshProtocol.MerkleTree
