import StshProtocol.Foundation.Records
import StshProtocol.Vetkeys.Canister
import StshProtocol.Vetkeys.Owners

/-! The cell of the fleet's window.

The window is stored as one cell, which is written in its second layout only and read in both. The
first has the bare times of the dispatches. A cell may hold more records than the budget, if it was
written when the budget was wider; of those the newest are kept. What does not read traps, and an
upgrade that reads such a cell would trap for ever. -/
namespace StshProtocol.Vetkeys
open Foundation ShieldedPool Vesting Records

/-! ### Layout -/

def globalDeriveWindowMaxEntries : Nat := 100

def principalKeyBytes : Nat := 1 + principalMaxBytes

def dispatchRecordV2Bytes : Nat := 8 + 1 + principalKeyBytes + 1

def layoutV1 : UInt8 := 1

def globalWindowLayoutV2 : UInt8 := 2

def globalDeriveWindowMaxBytes : Nat := 2 + globalDeriveWindowMaxEntries * dispatchRecordV2Bytes

/-- A dispatch of which only the time is known. -/
def DispatchRecord.untagged (atNs : Nat) : DispatchRecord := ⟨atNs, none, false⟩

def DispatchRecord.toBytes (r : DispatchRecord) : Bytes :=
  Bytes.toLe 8 r.atNs ++
    (match r.who with
      | some who => 1 :: who
      | none => 0 :: List.replicate principalKeyBytes 0) ++
    [if r.firstDerive then 1 else 0]

/-- The bytes of a window, in the second layout. -/
def layOut (records : List DispatchRecord) : Bytes :=
  globalWindowLayoutV2 :: UInt8.ofNat records.length :: records.flatMap DispatchRecord.toBytes

/-- `None` is a panic. -/
def GlobalDeriveWindow.toBytes (win : GlobalDeriveWindow) : Option Bytes :=
  if win.dispatched.length ≤ globalDeriveBudget then some (layOut win.dispatched) else none

/-! ### Reading -/

def takeU8 : Bytes → Option (UInt8 × Bytes)
  | [] => none
  | b :: rest => some (b, rest)

def takeU64 (bs : Bytes) : Option (Nat × Bytes) :=
  (Bytes.take 8 bs).map fun p => (Bytes.ofLe p.1, p.2)

def PrincipalKey.fromBytes (b : Bytes) : Option PrincipalKey :=
  if b.length = principalKeyBytes ∧ (b.headD 0).toNat ≤ principalMaxBytes then some b else none

def readFlag (b : UInt8) : Option Bool :=
  if b = 0 then some false else if b = 1 then some true else none

def readWho (present : UInt8) (key : Bytes) : Option (Option PrincipalKey) :=
  if present = 0 then some none
  else if present = 1 then (PrincipalKey.fromBytes key).map some
  else none

def readV1 (bs : Bytes) : Option (DispatchRecord × Bytes) :=
  (takeU64 bs).map fun p => (.untagged p.1, p.2)

def readV2 (bs : Bytes) : Option (DispatchRecord × Bytes) := do
  let (atNs, bs) ← takeU64 bs
  let (present, bs) ← takeU8 bs
  let (key, bs) ← Bytes.take principalKeyBytes bs
  let who ← readWho present key
  let (flag, bs) ← takeU8 bs
  let firstDerive ← readFlag flag
  return (⟨atNs, who, firstDerive⟩, bs)

/-- An order of the records by their times, whichever it is among equal times. -/
structure TimeSort where
  sort : List DispatchRecord → List DispatchRecord
  perm : ∀ l, (sort l).Perm l
  sorted : ∀ l, (sort l).Pairwise fun a b => a.atNs ≤ b.atNs

/-- The newest records within a budget. -/
def TimeSort.retainNewest (order : TimeSort) (budget : Nat) (records : List DispatchRecord) :
    List DispatchRecord :=
  if budget < records.length then keepEnd budget (order.sort records) else records

/-- All of the bytes, as records of this layout. -/
def readRecords (layout : UInt8) (n : Nat) (bs : Bytes) : Option (List DispatchRecord × Bytes) :=
  if layout = layoutV1 then readMany readV1 n bs
  else if layout = globalWindowLayoutV2 then readMany readV2 n bs
  else none

/-- `None` is a panic. -/
def GlobalDeriveWindow.fromBytes (order : TimeSort) (bs : Bytes) : Option GlobalDeriveWindow := do
  let (layout, bs) ← takeU8 bs
  let (n, bs) ← takeU8 bs
  if n.toNat ≤ globalDeriveWindowMaxEntries then
    let (dispatched, bs) ← readRecords layout n.toNat bs
    if bs = [] then some ⟨order.retainNewest globalDeriveBudget dispatched⟩ else none
  else none

/-! ### The cell -/

/-- The stored bytes, and the window read from them or last set. -/
structure FleetCell where
  bytes : Bytes
  window : GlobalDeriveWindow

namespace FleetCell

def load (order : TimeSort) (bytes : Bytes) : Option FleetCell :=
  (GlobalDeriveWindow.fromBytes order bytes).map fun window => ⟨bytes, window⟩

def set (window : GlobalDeriveWindow) : Option FleetCell :=
  window.toBytes.map fun bytes => ⟨bytes, window⟩

end FleetCell

/-- A dispatch of a caller, the rest of the canister being in any state, or an upgrade. -/
inductive CellEvent where
  | dispatch (nowNs : UInt64) (caller : PrincipalBytes) (id : Nat) (firstDerive : Bool) (live : Live)
    (s : VetkeysState)
  | upgrade

/-- `None` is a trap. -/
def FleetCell.step (order : TimeSort) (c : FleetCell) : CellEvent → Option FleetCell
  | .dispatch nowNs caller id firstDerive live s =>
    match {s with globalDeriveBudgetWindow := c.window}.dispatchFence nowNs.toNat
        (PrincipalKey.new caller) id firstDerive live with
    | (.error _, _) => some c
    | (.ok (), s') => FleetCell.set s'.globalDeriveBudgetWindow
  | .upgrade => FleetCell.load order c.bytes

def FleetCell.run (order : TimeSort) (bytes : Bytes) (events : List CellEvent) : Option FleetCell := do
  let c ← FleetCell.load order bytes
  events.foldlM (FleetCell.step order) c

/-! ### What stands for a record -/

/-- A key of the width of a principal's. -/
def KeyShape (key : Bytes) : Prop :=
  key.length = principalKeyBytes ∧ (key.headD 0).toNat ≤ principalMaxBytes

/-- The record's parts are in their ranges. -/
structure DispatchRecord.Typed (r : DispatchRecord) : Prop where
  atNs : r.atNs < 2 ^ 64
  who : ∀ who ∈ r.who, KeyShape who

/-- The bytes stand for the record in the first layout, -/
def StandsV1 (r : DispatchRecord) (bs : Bytes) : Prop :=
  ∃ atNs < 2 ^ 64, r = .untagged atNs ∧ bs = Bytes.toLe 8 atNs

/-- and in the second: the key of an absent principal may have any bytes. -/
def StandsV2 (r : DispatchRecord) (bs : Bytes) : Prop :=
  r.Typed ∧ (bs = r.toBytes ∨ r.who = none ∧ ∃ key : Bytes, key.length = principalKeyBytes ∧
    bs = Bytes.toLe 8 r.atNs ++ 0 :: key ++ [if r.firstDerive then 1 else 0])

/-- The records of a cell, behind its layout and their number. -/
def CellOf (records : List DispatchRecord) (bs : Bytes) : Prop :=
  records.length ≤ globalDeriveWindowMaxEntries ∧ ∃ layout fronts,
    bs = layout :: UInt8.ofNat records.length :: List.flatten fronts ∧
      (layout = layoutV1 ∧ List.Forall₂ StandsV1 records fronts ∨
        layout = globalWindowLayoutV2 ∧ List.Forall₂ StandsV2 records fronts)

/-! ### Reading what stands for a record -/

section Reading
variable {bs rest : Bytes}

/-- The key's bytes are the principal's, or the principal is absent. -/
theorem standsV2_iff {r : DispatchRecord} {front : Bytes} : StandsV2 r front ↔
    r.atNs < 2 ^ 64 ∧ ∃ present key, key.length = principalKeyBytes ∧
      ((present = 0 ∧ r.who = none) ∨ (present = 1 ∧ r.who = some key ∧ KeyShape key)) ∧
        front = Bytes.toLe 8 r.atNs ++ present :: key ++ [if r.firstDerive then 1 else 0] := by
  obtain ⟨t, who, f⟩ := r
  constructor
  · rintro ⟨hr, rfl | ⟨rfl, key, hkey, rfl⟩⟩
    · cases who with
      | none =>
        exact ⟨hr.atNs, 0, List.replicate principalKeyBytes 0, List.length_replicate, .inl ⟨rfl, rfl⟩,
          by simp [DispatchRecord.toBytes]⟩
      | some key =>
        have hshape := hr.who key rfl
        exact ⟨hr.atNs, 1, key, hshape.1, .inr ⟨rfl, rfl, hshape⟩, by simp [DispatchRecord.toBytes]⟩
    · exact ⟨hr.atNs, 0, key, hkey, .inl ⟨rfl, rfl⟩, rfl⟩
  · rintro ⟨ht, present, key, hkey, ⟨rfl, hwho⟩ | ⟨rfl, hwho, hshape⟩, rfl⟩
    · cases hwho
      exact ⟨⟨ht, nofun⟩, .inr ⟨rfl, key, hkey, rfl⟩⟩
    · cases hwho
      refine ⟨⟨ht, fun _ hk => ?_⟩, .inl (by simp [DispatchRecord.toBytes])⟩
      cases hk
      exact hshape

/-- What stands for a record stands for one with its parts in range. -/
theorem StandsV1.typed {r : DispatchRecord} {front : Bytes} (h : StandsV1 r front) : r.Typed := by
  obtain ⟨t, ht, rfl, -⟩ := h
  exact ⟨ht, nofun⟩

theorem StandsV1.length {r : DispatchRecord} {front : Bytes} (h : StandsV1 r front) :
    front.length = 8 := by
  obtain ⟨t, -, -, rfl⟩ := h
  exact Bytes.length_toLe 8 t

theorem StandsV2.length {r : DispatchRecord} {front : Bytes} (h : StandsV2 r front) :
    front.length = dispatchRecordV2Bytes := by
  obtain ⟨-, present, key, hkey, -, rfl⟩ := standsV2_iff.1 h
  simp only [List.length_append, List.length_cons, List.length_nil, Bytes.length_toLe, hkey]
  rfl

variable {order : TimeSort} {records : List DispatchRecord} {win : GlobalDeriveWindow}

end Reading

/-! ### The newest records -/

section Newest
variable {order : TimeSort} {budget : Nat} {records : List DispatchRecord}

end Newest

/-! ### Writing -/

section Writing
variable {order : TimeSort} {records : List DispatchRecord} {bs : Bytes}

/-- Every record's parts are in their ranges. -/
def TypedRecords (records : List DispatchRecord) : Prop := ∀ r ∈ records, r.Typed

theorem CellOf.typed (h : CellOf records bs) : TypedRecords records := by
  obtain ⟨-, layout, fronts, -, ⟨-, hall⟩ | ⟨-, hall⟩⟩ := h
  · exact forall_of_stands hall fun _ _ hr => hr.typed
  · exact forall_of_stands hall fun _ _ hr => hr.1

theorem CellOf.length_le (h : CellOf records bs) : bs.length ≤ globalDeriveWindowMaxBytes := by
  obtain ⟨hn, layout, fronts, rfl, hall⟩ := h
  have hflat : (List.flatten fronts).length ≤ records.length * dispatchRecordV2Bytes := by
    rcases hall with ⟨-, hall⟩ | ⟨-, hall⟩
    · exact length_flatten_le hall fun _ _ hr => Nat.le_trans (Nat.le_of_eq hr.length) (by decide)
    · exact length_flatten_le hall fun _ _ hr => Nat.le_of_eq hr.length
  have hmost := Nat.mul_le_mul_right dispatchRecordV2Bytes hn
  rw [List.length_cons, List.length_cons, globalDeriveWindowMaxBytes]
  omega

end Writing

/-! ### Runs -/

namespace FleetCell
variable {order : TimeSort} {c : FleetCell} {bs : Bytes}

end FleetCell

/-- The order that keeps equal times as they are. -/
def TimeSort.merge : TimeSort where
  sort l := l.mergeSort fun a b => decide (a.atNs ≤ b.atNs)
  perm l := List.mergeSort_perm l _
  sorted l := by
    have h := @List.pairwise_mergeSort _ (fun a b : DispatchRecord => decide (a.atNs ≤ b.atNs))
      (by simpa using fun _ _ _ => Nat.le_trans) (by simpa using fun _ _ => Nat.le_total _ _) l
    simpa using h

/-- The bytes are those a release of either layout writes. -/
def Written (bs : Bytes) : Prop :=
  (∃ times : List Nat, times.length ≤ globalDeriveWindowMaxEntries ∧ (∀ t ∈ times, t < 2 ^ 64) ∧
      bs = layoutV1 :: UInt8.ofNat times.length :: times.flatMap (Bytes.toLe 8)) ∨
    ∃ records, records.length ≤ globalDeriveWindowMaxEntries ∧ TypedRecords records ∧
      bs = layOut records

end StshProtocol.Vetkeys
