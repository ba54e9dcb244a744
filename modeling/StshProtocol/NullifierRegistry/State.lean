import StshProtocol.MerkleTree.State

/-! The nullifier registry: one stable map from spent nullifiers to the time of their
insertion, two endpoints that insert, and the upgrade. -/
namespace StshProtocol.NullifierRegistry
open Foundation ShieldedPool Handler

/-- Why a message is rolled back. -/
inductive Trap where
  | poolUnset
  | notPool
  | sentinelSurvived
  deriving DecidableEq, Repr

/-- `NULLIFIERS`, the eager cell of the pool's principal and its copy on the heap. -/
@[ext] structure RegistryState where
  nullifiers : StableMap Bytes32 Nat
  poolRef : Option Principal
  poolCanister : Option Principal

abbrev Endpoint (α : Type) : Type := Handler Trap RegistryState String α

/-! ### Keys -/

/-- `hex::encode`. -/
def hexEncode (bytes : Bytes) : String :=
  String.ofList (bytes.flatMap fun b => [Nat.digitChar (b.toNat / 16), Nat.digitChar (b.toNat % 16)])

def toNullifierKey (bytes : Bytes) : Except String Bytes32 :=
  if bytes.length ≠ 32 then
    .error s!"InvalidNullifier: expected 32 bytes, got {bytes.length}"
  else if MerkleTree.isCanonicalFrLe bytes = false then
    .error "NonCanonicalNullifier: bytes >= BN254 Fr modulus"
  else
    .ok (MerkleTree.hash32 bytes)

def alreadySpent (key : Bytes32) : String :=
  s!"NullifierAlreadySpent:{hexEncode (Bytes.toBe 32 key.toNat)}"

/-! ### Endpoints -/

def setPoolCanister (pool : Principal) (s : RegistryState) : RegistryState :=
  {s with poolRef := some pool, poolCanister := some pool}

def init (pool : Principal) : RegistryState := setPoolCanister pool ⟨∅, none, none⟩

def assertPoolCanister (caller : Principal) : Endpoint Unit := do
  let configured ← read fun s => s.poolCanister
  let pool ← expect configured .poolUnset
  assert (caller = pool) .notPool

def containsNullifier (nullifier : Bytes) (s : RegistryState) : Bool :=
  match toNullifierKey nullifier with
  | .ok key => s.nullifiers.contains key
  | .error _ => false

def insertNullifier (now : Nat) (caller : Principal) (nullifier : Bytes) : Endpoint Unit := do
  assertPoolCanister caller
  let key ← lift (toNullifierKey nullifier)
  let spent ← read fun s => s.nullifiers.contains key
  demand (spent = false) "NullifierAlreadySpent"
  write fun s => {s with nullifiers := s.nullifiers.insert key now}

/-- The first phase of a batch: each key is new to the registry and to the batch so far. -/
def checkFresh (registry : StableMap Bytes32 Nat) : StableMap Bytes32 Unit → List Bytes32 →
    Except String Unit
  | _, [] => .ok ()
  | seen, key :: keys =>
    if registry.contains key then
      .error (alreadySpent key)
    else if seen.contains key then
      .error (alreadySpent key)
    else
      checkFresh registry (seen.insert key ()) keys

/-- The second phase. -/
def insertAll (now : Nat) (registry : StableMap Bytes32 Nat) (keys : List Bytes32) :
    StableMap Bytes32 Nat :=
  keys.foldl (fun map key => map.insert key now) registry

def insertBatch (now : Nat) (caller : Principal) (nullifiers : List Bytes) : Endpoint Unit := do
  assertPoolCanister caller
  let keys ← lift (nullifiers.mapM toNullifierKey)
  let registry ← read fun s => s.nullifiers
  lift (checkFresh registry ∅ keys)
  write fun s => {s with nullifiers := insertAll now s.nullifiers keys}

def maxNullifiersPageSize : Nat := 500

/-- The next nullifiers after a cursor, which must be as canonical as what is inserted. -/
def getNullifiersPage (startAfter : Option Bytes) (limit : Nat) (s : RegistryState) :
    Except String (List Bytes) :=
  if limit = 0 then
    .error "InvalidLimit: limit must be nonzero"
  else if maxNullifiersPageSize < limit then
    .error (s!"PageTooLarge: requested limit {limit} exceeds MAX_NULLIFIERS_PAGE_SIZE " ++
      s!"{maxNullifiersPageSize}")
  else do
    let start ← startAfter.mapM toNullifierKey
    return ((s.nullifiers.entriesAfter start).take limit).map fun e => MerkleTree.hashBytes e.1

/-! ### Upgrade -/

/-- Stable memory survives; the heap starts over, and the principal is read back. -/
def upgrade : Endpoint Unit := do
  write fun s => {s with poolCanister := none}
  let cell ← read fun s => s.poolRef
  let pool ← expect cell .sentinelSurvived
  write fun s => {s with poolCanister := some pool}

end StshProtocol.NullifierRegistry
