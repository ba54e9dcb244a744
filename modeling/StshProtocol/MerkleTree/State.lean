import StshProtocol.ShieldedPool.Basic
import StshProtocol.Foundation.Bytes
import StshProtocol.Foundation.Handler

/-! The Merkle tree canister: its stable maps, its two appends and its upgrade.

The tree is kept as one map from packed node keys to hashes. An append writes the path
above the new leaf, takes each sibling from the map, or from the table of blank
subtrees where the map has none, and stores the root it reaches. -/
namespace StshProtocol.MerkleTree
open Foundation ShieldedPool Handler

def treeDepth : Nat := 32
def rootHistorySize : Nat := 100
def maxTreeLeaves : Nat := 2 ^ treeDepth
def maxBatchSize : Nat := 10
def maxEncryptedPayloadBytes : Nat := 1024

/-- Why a message is rolled back. -/
inductive Trap where
  | poolUnset
  | notPool
  | sentinelSurvived
  | missingTail
  | keyAtLeafCount
  | rootOccupancy
  deriving DecidableEq, Repr

/-- Stable memory, and the heap: the two counters and the copy of the pool's principal. -/
@[ext] structure MerkleState where
  commitments : StableMap Nat Bytes32
  payloads : StableMap Nat Bytes
  rootHistory : StableMap Nat Bytes32
  treeNodes : StableMap Nat Bytes32
  poolRef : Option Principal
  leafCount : Nat
  rootIndex : Nat
  poolCanister : Option Principal

abbrev Endpoint (α : Type) : Type := Handler Trap MerkleState String α

/-! ### The hashes -/

/-- `is_canonical_fr_le` compares with the modulus from the most significant byte down. -/
def leLt : List UInt8 → List UInt8 → Bool
  | a :: as, b :: bs => if a < b then true else if b < a then false else leLt as bs
  | _, _ => false

/-- The modulus of the BN254 scalar field, little-endian. -/
def frModulusLe : Bytes :=
  [0x01, 0x00, 0x00, 0xf0, 0x93, 0xf5, 0xe1, 0x43, 0x91, 0x70, 0xb9, 0x79, 0x48, 0xe8, 0x33, 0x28,
   0x5d, 0x58, 0x81, 0x81, 0xb6, 0x45, 0x50, 0xb8, 0x29, 0xa0, 0x31, 0xe1, 0x72, 0x4e, 0x64, 0x30]

def isCanonicalFrLe (bytes : Bytes) : Bool := leLt bytes.reverse frModulusLe.reverse

/-- 32 bytes as a hash. -/
def hash32 (bytes : Bytes) : Bytes32 := BitVec.ofNat 256 (Bytes.ofBe bytes)

/-- `to_vec`. -/
def hashBytes (h : Bytes32) : Bytes := Bytes.toBe 32 h.toNat

theorem length_hashBytes (h : Bytes32) : (hashBytes h).length = 32 := Bytes.length_toBe _ _

theorem hash32_hashBytes (h : Bytes32) : hash32 (hashBytes h) = h := by
  have hlt : h.toNat < 256 ^ 32 := h.isLt
  rw [hash32, hashBytes, Bytes.ofBe_toBe hlt, BitVec.ofNat_toNat, BitVec.setWidth_eq]

theorem hashBytes_hash32 {bytes : Bytes} (h : bytes.length = 32) : hashBytes (hash32 bytes) = bytes := by
  have hlt : Bytes.ofBe bytes < 2 ^ 256 := by
    have hbound := Bytes.ofBe_lt bytes
    rw [h] at hbound
    exact hbound
  rw [hashBytes, hash32, BitVec.toNat_ofNat, Nat.mod_eq_of_lt hlt, Bytes.toBe_ofBe h]

variable (H : Bytes32 → Bytes32 → Bytes32)

/-- `ZERO_VALUES`: the blank leaf is the hash of two zeros, a blank node that of two
blank nodes. -/
def zeroValue : Nat → Bytes32
  | 0 => H 0 0
  | level + 1 => H (zeroValue level) (zeroValue level)

/-! ### The tree -/

/-- Level and index in one `u64`. -/
def encodeNodeKey (level index : Nat) : Nat := (level <<< 32) ||| (index &&& 0xFFFFFFFF)

/-- The loop of `update_tree`: the nodes written, the hash reached and its index. -/
structure Climb where
  nodes : StableMap Nat Bytes32
  current : Bytes32
  index : Nat

def climb (c : Climb) (level : Nat) : Climb :=
  let nodes := c.nodes.insert (encodeNodeKey level c.index) c.current
  let siblingIndex := if c.index % 2 = 0 then c.index + 1 else c.index - 1
  let sibling := (nodes[encodeNodeKey level siblingIndex]?).getD (zeroValue H level)
  { nodes := nodes
    current := if c.index % 2 = 0 then H c.current sibling else H sibling c.current
    index := c.index / 2 }

def updateTree (nodes : StableMap Nat Bytes32) (leafIndex : Nat) (leafHash : Bytes32) : Climb :=
  (List.range treeDepth).foldl (climb H) ⟨nodes, leafHash, leafIndex⟩

def storeRoot (root : Bytes32) (s : MerkleState) : MerkleState :=
  {s with rootIndex := s.rootIndex + 1
          rootHistory := s.rootHistory.insert (s.rootIndex % rootHistorySize) root}

def currentRoot (s : MerkleState) : Bytes32 :=
  (s.rootHistory[(s.rootIndex - 1) % rootHistorySize]?).getD (zeroValue H treeDepth)

/-- What either append does for one validated leaf. -/
def appendLeaf (leaf : Bytes32 × Bytes) (s : MerkleState) : MerkleState :=
  let index := s.leafCount
  let climbed := updateTree H s.treeNodes index leaf.1
  storeRoot climbed.current {s with leafCount := index + 1
                                    commitments := s.commitments.insert index leaf.1
                                    payloads := s.payloads.insert index leaf.2
                                    treeNodes := climbed.nodes}

/-! ### Endpoints -/

def setPoolCanister (pool : Principal) (s : MerkleState) : MerkleState :=
  {s with poolRef := some pool, poolCanister := some pool}

/-- A module just installed. -/
def MerkleState.fresh : MerkleState where
  commitments := ∅
  payloads := ∅
  rootHistory := ∅
  treeNodes := ∅
  poolRef := none
  leafCount := 0
  rootIndex := 0
  poolCanister := none

def init (pool : Principal) : MerkleState :=
  storeRoot (zeroValue H treeDepth) (setPoolCanister pool MerkleState.fresh)

def assertPool (caller : Principal) : Endpoint Unit := do
  let configured ← read fun s => s.poolCanister
  let pool ← expect configured .poolUnset
  assert (caller = pool) .notPool

/-- Filling the tree to its last leaf is allowed; the sum must be a `u64`. -/
def ensureCapacityForAppend (leafCount batchLen : Nat) : Except String Unit :=
  if leafCount + batchLen ≤ u64Max ∧ leafCount + batchLen ≤ maxTreeLeaves then
    .ok ()
  else
    .error s!"TreeFull: appending {batchLen} leaf/leaves at leaf_count {leafCount} would exceed capacity {maxTreeLeaves}"

def validateCommitmentBytes (commitment : Bytes) : Except String Bytes32 :=
  if commitment.length ≠ 32 then
    .error s!"InvalidLength: commitment must be 32 bytes, got {commitment.length}"
  else if isCanonicalFrLe commitment = false then
    .error "InvalidCommitment: non-canonical BN254 field element (bytes >= field modulus)"
  else
    .ok (hash32 commitment)

/-- One leaf and its payload, checked. -/
def validateItem (item : Bytes × Bytes) : Except String (Bytes32 × Bytes) := do
  let arr ← validateCommitmentBytes item.1
  if item.2.length > maxEncryptedPayloadBytes then
    .error s!"encrypted_payload {item.2.length} exceeds MAX_ENCRYPTED_PAYLOAD_BYTES {maxEncryptedPayloadBytes}"
  else
    .ok (arr, item.2)

def appendCommitment (caller : Principal) (commitment encryptedPayload : Bytes) : Endpoint Nat := do
  assertPool caller
  let leaf ← lift (validateItem (commitment, encryptedPayload))
  let leafCount ← read fun s => s.leafCount
  lift (ensureCapacityForAppend leafCount 1)
  write (appendLeaf H leaf)
  pure leafCount

/-- The leaves of a batch in turn, each with the index it is given. -/
def appendLeaves : List (Bytes32 × Bytes) → Endpoint (List Nat)
  | [] => pure []
  | leaf :: rest => do
    let index ← read fun s => s.leafCount
    write (appendLeaf H leaf)
    let indices ← appendLeaves rest
    pure (index :: indices)

def appendCommitments (caller : Principal) (items : List (Bytes × Bytes)) :
    Endpoint (List Nat) := do
  assertPool caller
  demand (items.length ≤ maxBatchSize)
    s!"BatchTooLarge: {items.length} items exceeds MAX_BATCH_SIZE {maxBatchSize}"
  let leafCount ← read fun s => s.leafCount
  lift (ensureCapacityForAppend leafCount items.length)
  let validated ← lift (items.mapM validateItem)
  appendLeaves H validated

/-! ### Upgrade -/

/-- Stable memory survives; the heap starts over. -/
def reboot (s : MerkleState) : MerkleState :=
  {s with leafCount := 0, rootIndex := 0, poolCanister := none}

/-- The counters are derived from the maps, and the derivation is checked. -/
def postUpgrade : Endpoint Unit := do
  let cell ← read fun s => s.poolRef
  let pool ← expect cell .sentinelSurvived
  let leafCount ← read fun s => s.commitments.size
  write fun s => {s with poolCanister := some pool
                         leafCount := leafCount
                         rootIndex := leafCount + 1}
  let tail ← read fun s => s.commitments.contains (leafCount - 1)
  assert (leafCount = 0 ∨ tail = true) .missingTail
  let extra ← read fun s => s.commitments.contains leafCount
  assert (extra = false) .keyAtLeafCount
  let occupied ← read fun s => s.rootHistory.size
  assert (occupied = min (leafCount + 1) rootHistorySize) .rootOccupancy

def upgrade : Endpoint Unit := do
  write reboot
  postUpgrade

end StshProtocol.MerkleTree
