import StshProtocol.Foundation.Layout
import StshProtocol.Vetkeys.State

/-! The fixed layouts of stored records.

Each record has bytes of one width, field behind field. A corrupt record is to be refused: reading it
as a plausible one, say with a claim that is not there, is worse than a trap. Bytes that no reader
looks at, and presence bytes that are compared loosely, let some through. `Plain` says of each
layout which bytes are read for no others than they are: filling is zero, and so is what stands in
the place of an absent value, and a presence byte is zero or one. The record is kept exactly as it
is stored where its bytes are refused or plain (`stored_records_exact`). -/
namespace StshProtocol.StoredRecords
open Foundation Layout Vesting

/-! ### Presence bytes -/

/-- `b == 1`. -/
def isOne : Codec.Presence := ⟨fun b => some (b == 1), rfl, rfl⟩

/-- `b != 0`. -/
def notZero : Codec.Presence := ⟨fun b => some (b != 0), rfl, rfl⟩

/-- Zero or one, and nothing else. -/
def strict : Codec.Presence :=
  ⟨fun b => if b = 0 then some false else if b = 1 then some true else none, rfl, rfl⟩

/-! ### Principals and device ids -/

def principalMaxLen : Nat := 29

def readPrincipal : List UInt8 → Option PrincipalBytes
  | [] => none
  | len :: rest =>
    if h : len.toNat ≤ principalMaxLen then
      some ⟨rest.take len.toNat, Nat.le_trans (List.length_take_le _ _) h⟩
    else none

def LongPrincipal : List UInt8 → Prop
  | [] => True
  | len :: _ => principalMaxLen < len.toNat

def ZeroFilled : List UInt8 → Prop
  | [] => False
  | len :: rest => rest.drop len.toNat = List.replicate (principalMaxLen - len.toNat) 0

/-- A principal behind its length, filled up with zeros that no reader looks at. -/
def principalSlot : Codec PrincipalBytes where
  width := 1 + principalMaxLen
  write p := p.sized ++ List.replicate (principalMaxLen - p.asSlice.length) 0
  read := readPrincipal
  Refuses := LongPrincipal
  Plain := ZeroFilled
  length_write p := by
    have hp := p.short
    simp only [PrincipalBytes.sized, principalMaxLen, List.length_append, List.length_cons,
      List.length_replicate]
    omega
  read_write p := by
    have hp := p.short
    have hbyte : (UInt8.ofNat p.asSlice.length).toNat = p.asSlice.length := by
      rw [UInt8.toNat_ofNat']
      omega
    simp only [PrincipalBytes.sized, List.cons_append, readPrincipal, hbyte, List.take_left']
    exact dif_pos hp
  refuses_iff bs h := by
    cases bs with
    | nil => exact ⟨fun _ => trivial, fun _ => rfl⟩
    | cons len rest =>
      by_cases hlen : len.toNat ≤ principalMaxLen
      · simp only [readPrincipal, dif_pos hlen, reduceCtorEq, false_iff]
        exact Nat.not_lt.2 hlen
      · simp only [readPrincipal, dif_neg hlen, true_iff]
        exact Nat.lt_of_not_le hlen
  plain_iff bs p h hread := by
    cases bs with
    | nil => cases hread
    | cons len rest =>
      by_cases hlen : len.toNat ≤ principalMaxLen
      · simp only [readPrincipal, dif_pos hlen] at hread
        cases hread
        rw [List.length_cons] at h
        have hrest : (rest.take len.toNat).length = len.toNat := by
          rw [List.length_take]
          omega
        simp only [PrincipalBytes.sized, hrest, UInt8.ofNat_toNat, List.cons_append, List.cons.injEq,
          true_and]
        constructor
        · intro heq
          rw [← heq, ZeroFilled, List.drop_left' hrest]
        · intro hzero
          rw [← hzero, List.take_append_drop]
      · simp only [readPrincipal, dif_neg hlen] at hread
        cases hread

def maxDeviceIdBytes : Nat := 64

/-- The length byte of an id. -/
def idLength (bs : List UInt8) : Bool :=
  bs.head?.any fun len => decide (len.toNat ≤ maxDeviceIdBytes) && len != 0

/-- `DeviceIdKey`: read as it is, if its length can be. -/
abbrev DeviceIdKey : Type := {bs : List UInt8 // bs.length = 1 + maxDeviceIdBytes ∧ idLength bs = true}

def deviceIdKey : Codec DeviceIdKey := .raw (1 + maxDeviceIdBytes) idLength

/-! ### The settlement of a deposit -/

structure SettleClaim where
  generation : Word 4
  claimedAtNs : Word 8
  deriving DecidableEq

inductive SettlementDisposition where
  | unresolved
  | applied (blockIndex : Word 8)
  | anomaly
  deriving DecidableEq

structure DepositSettlementV1 where
  protocolVersion : Word 2
  tokenCanister : PrincipalBytes
  amount : Word 16
  fee : Word 16
  claim : Option SettleClaim
  disposition : SettlementDisposition
  anomalyCode : Word 4
  deriving DecidableEq

def claimField : Codec (Option SettleClaim) :=
  .option isOne (((Codec.le 4).pair (.le 8)).iso
    { toFun := fun a => ⟨a.1, a.2⟩
      invFun := fun c => (c.generation, c.claimedAtNs)
      left_inv := fun _ => rfl
      right_inv := fun _ => rfl })

/-- A tag, and a block's index where there is one. -/
def dispositionField : Codec SettlementDisposition where
  width := 9
  write
    | .unresolved => 0 :: List.replicate 8 0
    | .applied blockIndex => 1 :: (Codec.le 8).write blockIndex
    | .anomaly => 2 :: List.replicate 8 0
  read
    | [] => none
    | tag :: rest =>
      if tag = 0 then some .unresolved
      else if tag = 1 then ((Codec.le 8).read rest).map .applied
      else if tag = 2 then some .anomaly
      else none
  Refuses
    | [] => True
    | tag :: _ => 2 < tag.toNat
  Plain
    | [] => False
    | tag :: rest => tag = 1 ∨ rest = List.replicate 8 0
  length_write
    | .unresolved => rfl
    | .applied blockIndex => by rw [List.length_cons, (Codec.le 8).length_write]; rfl
    | .anomaly => rfl
  read_write
    | .unresolved => rfl
    | .applied blockIndex => by
      show ((Codec.le 8).read ((Codec.le 8).write blockIndex)).map SettlementDisposition.applied = _
      rw [(Codec.le 8).read_write]
      rfl
    | .anomaly => rfl
  refuses_iff bs h := by
    cases bs with
    | nil => exact ⟨fun _ => trivial, fun _ => rfl⟩
    | cons tag rest =>
      by_cases h0 : tag = 0
      · subst h0
        exact ⟨nofun, fun hlt => absurd (show 2 < 0 from hlt) (by decide)⟩
      by_cases h1 : tag = 1
      · subst h1
        exact ⟨nofun, fun hlt => absurd (show 2 < 1 from hlt) (by decide)⟩
      by_cases h2 : tag = 2
      · subst h2
        exact ⟨nofun, fun hlt => absurd (show 2 < 2 from hlt) (by decide)⟩
      simp only [if_neg h0, if_neg h1, if_neg h2, true_iff]
      rw [← UInt8.toNat_inj] at h0 h1 h2
      have hzero : (0 : UInt8).toNat = 0 := rfl
      have hone : (1 : UInt8).toNat = 1 := rfl
      have htwo : (2 : UInt8).toNat = 2 := rfl
      omega
  plain_iff bs d h hread := by
    cases bs with
    | nil => cases hread
    | cons tag rest =>
      by_cases h0 : tag = 0
      · subst h0
        cases hread
        simp only [List.cons.injEq, true_and]
        exact ⟨fun heq => .inr heq.symm, fun hor => (hor.resolve_left (by decide)).symm⟩
      by_cases h1 : tag = 1
      · subst h1
        have hindex : ((Codec.le 8).read rest).map SettlementDisposition.applied = some d := hread
        obtain ⟨i, hi, rfl⟩ := Option.map_eq_some_iff.1 hindex
        rw [List.length_cons] at h
        have hplain := ((Codec.le 8).plain_iff rest i (Nat.succ.inj h) hi).2 trivial
        simp only [hplain, true_or]
      by_cases h2 : tag = 2
      · subst h2
        cases hread
        simp only [List.cons.injEq, true_and]
        exact ⟨fun heq => .inr heq.symm, fun hor => (hor.resolve_left (by decide)).symm⟩
      simp only [if_neg h0, if_neg h1, if_neg h2] at hread
      cases hread

/-- The bytes 0–1, 2–31, 32–47, 48–63, 64–76, 77–85 and 86–89. -/
def settlementLayout : Codec DepositSettlementV1 :=
  ((Codec.le 2).pair (principalSlot.pair ((Codec.le 16).pair ((Codec.le 16).pair
    (claimField.pair (dispositionField.pair (.le 4))))))).iso
    { toFun := fun (version, token, amount, fee, claim, disposition, code) =>
        ⟨version, token, amount, fee, claim, disposition, code⟩
      invFun := fun s =>
        (s.protocolVersion, s.tokenCanister, s.amount, s.fee, s.claim, s.disposition, s.anomalyCode)
      left_inv := fun _ => rfl
      right_inv := fun _ => rfl }

def depositSettlementEncodedLen : Nat := 90

def DepositSettlementV1.toBytes (s : DepositSettlementV1) : List UInt8 := settlementLayout.write s

/-- No result where the code traps. -/
def DepositSettlementV1.fromBytes (b : List UInt8) : Option DepositSettlementV1 :=
  if b.length < depositSettlementEncodedLen then none
  else settlementLayout.read (b.take depositSettlementEncodedLen)

/-! ### The receipt of a deposit -/

inductive DepositReceiptV1 where
  | applied (blockIndex : Word 8) (amount feeCharged : Word 16) (requestHash : {bs : List UInt8 //
      bs.length = 32 ∧ true = true}) (appliedAtNs : Word 8)
  | cancelled (requestHash : {bs : List UInt8 // bs.length = 32 ∧ true = true}) (closedAtNs : Word 8)
  deriving DecidableEq

def hashField : Codec {bs : List UInt8 // bs.length = 32 ∧ true = true} := .raw 32 fun _ => true

/-- The bytes 1–32, 33–40, 41–56, 57–72 and 73–80. -/
abbrev appliedFields := hashField.pair ((Codec.le 8).pair ((Codec.le 16).pair ((Codec.le 16).pair (.le 8))))

/-- The bytes 1–32 and 33–40, and what is left. -/
abbrev cancelledFields := hashField.pair ((Codec.le 8).pair (.blank 40))

theorem receipt_widths : appliedFields.width = cancelledFields.width := rfl

/-- The byte 0 says which of the two. -/
def receiptLayout : Codec DepositReceiptV1 :=
  (Codec.sum strict appliedFields cancelledFields receipt_widths).iso
    { toFun := fun
        | .inl (requestHash, word, amount, feeCharged, appliedAtNs) =>
          .applied word amount feeCharged requestHash appliedAtNs
        | .inr (requestHash, word, ()) => .cancelled requestHash word
      invFun := fun
        | .applied blockIndex amount feeCharged requestHash appliedAtNs =>
          .inl (requestHash, blockIndex, amount, feeCharged, appliedAtNs)
        | .cancelled requestHash closedAtNs => .inr (requestHash, closedAtNs, ())
      left_inv := fun
        | .inl _ => rfl
        | .inr _ => rfl
      right_inv := fun
        | .applied .. => rfl
        | .cancelled .. => rfl }

def depositReceiptEncodedLen : Nat := 81

def DepositReceiptV1.toBytes (r : DepositReceiptV1) : List UInt8 := receiptLayout.write r

def DepositReceiptV1.fromBytes (b : List UInt8) : Option DepositReceiptV1 :=
  if b.length < depositReceiptEncodedLen then none
  else receiptLayout.read (b.take depositReceiptEncodedLen)

/-! ### The policies of the vetkeys canister -/

def layoutV1 : UInt8 := 1

structure RebootstrapPolicyV1 where
  allowReBootstrap : Bool
  authorizedByDevice : Option DeviceIdKey
  authorizedAtNs : Word 8
  deriving DecidableEq

/-- The bytes 0, 1, 2–67 and 68–75. -/
def rebootstrapLayout : Codec RebootstrapPolicyV1 :=
  ((Codec.const layoutV1).pair ((Codec.flag notZero).pair ((Codec.option notZero deviceIdKey).pair
    (.le 8)))).iso
    { toFun := fun ((), allow, device, authorizedAt) => ⟨allow, device, authorizedAt⟩
      invFun := fun p => ((), p.allowReBootstrap, p.authorizedByDevice, p.authorizedAtNs)
      left_inv := fun _ => rfl
      right_inv := fun _ => rfl }

def rebootstrapPolicyBytes : Nat := 1 + 1 + 1 + (1 + maxDeviceIdBytes) + 8

def RebootstrapPolicyV1.toBytes (p : RebootstrapPolicyV1) : List UInt8 := rebootstrapLayout.write p

def RebootstrapPolicyV1.fromBytes (b : List UInt8) : Option RebootstrapPolicyV1 :=
  if b.length = rebootstrapPolicyBytes then rebootstrapLayout.read b else none

structure DeviceApprovalPolicyV1 where
  requireDeviceApproval : Bool
  setByDevice : DeviceIdKey
  setAtNs : Word 8
  pendingClearAtNs : Option (Word 8)
  deriving DecidableEq

/-- The bytes 0, 1, 2–66, 67–74 and 75–83. -/
def approvalLayout : Codec DeviceApprovalPolicyV1 :=
  ((Codec.const layoutV1).pair ((Codec.flag strict).pair (deviceIdKey.pair ((Codec.le 8).pair
    (.option strict (.le 8)))))).iso
    { toFun := fun ((), require, device, setAt, pending) => ⟨require, device, setAt, pending⟩
      invFun := fun p =>
        ((), p.requireDeviceApproval, p.setByDevice, p.setAtNs, p.pendingClearAtNs)
      left_inv := fun _ => rfl
      right_inv := fun _ => rfl }

def deviceApprovalPolicyBytes : Nat := 1 + 1 + (1 + maxDeviceIdBytes) + 8 + 1 + 8

def DeviceApprovalPolicyV1.toBytes (p : DeviceApprovalPolicyV1) : List UInt8 := approvalLayout.write p

def DeviceApprovalPolicyV1.fromBytes (b : List UInt8) : Option DeviceApprovalPolicyV1 :=
  if b.length = deviceApprovalPolicyBytes then approvalLayout.read b else none

/-! ### The eager cells -/

def layoutVersion : UInt8 := 1

/-- The values of a cell, as many as it has slots. -/
abbrev Slots (α : Type) (n : Nat) : Type := {l : List α // l.length = n}

section Cell
variable {α : Type}

def cellEncodedLen (slot : Codec α) (n : Nat) : Nat := 1 + slot.width * n

/-- A cell without values is all ones. -/
def cellToBytes (slot : Codec α) (n : Nat) : Option (Slots α n) → List UInt8
  | none => List.replicate (cellEncodedLen slot n) 0xFF
  | some values => layoutVersion :: (slot.array n).write values

/-- What is not exactly of the layout is a cell without values. -/
def cellFromBytes (slot : Codec α) (n : Nat) (bytes : List UInt8) : Option (Slots α n) :=
  if bytes.length ≠ cellEncodedLen slot n then none
  else if bytes.all (· == 0xFF) then none
  else if bytes.head? ≠ some layoutVersion then none
  else (slot.array n).read (bytes.drop 1)

end Cell

/-- The references, or the sentinel. -/
abbrev PrincipalRefs (n : Nat) : Type := Option (Slots PrincipalBytes n)

def PrincipalRefs.toBytes {n : Nat} (refs : PrincipalRefs n) : List UInt8 := cellToBytes principalSlot n refs

def PrincipalRefs.fromBytes (n : Nat) (bytes : List UInt8) : PrincipalRefs n :=
  cellFromBytes principalSlot n bytes

abbrev Scalars (n : Nat) : Type := Option (Slots (Word 16) n)

def Scalars.toBytes {n : Nat} (words : Scalars n) : List UInt8 := cellToBytes (Codec.be 16) n words

def Scalars.fromBytes (n : Nat) (bytes : List UInt8) : Scalars n := cellFromBytes (Codec.be 16) n bytes

/-! ### Which bytes are read for no others -/

/-- The byte at a place. -/
def byte (bs : List UInt8) (i : Nat) : UInt8 := bs.getD i 0

/-- These bytes are zero. -/
def Zeros (bs : List UInt8) (offset n : Nat) : Prop := slice bs offset n = List.replicate n 0

/-- A principal's slot is filled up with zeros. -/
def SlotFilled (bs : List UInt8) (offset : Nat) : Prop :=
  (slice bs (offset + 1) principalMaxLen).drop (byte bs offset).toNat =
    List.replicate (principalMaxLen - (byte bs offset).toNat) 0

/-- The settlement is refused, or its slot is filled with zeros, its presence byte zero or one, and
an absent claim or index zero. -/
def SettlementExact (bs : List UInt8) : Prop :=
  (29 < (byte bs 2).toNat ∨ 2 < (byte bs 77).toNat) ∨
    SlotFilled bs 2 ∧ (byte bs 64 = 0 ∧ Zeros bs 65 12 ∨ byte bs 64 = 1) ∧
      (byte bs 77 = 1 ∨ Zeros bs 78 8)

/-- The receipt is refused, or one of a fenced deposit ends in zeros. -/
def ReceiptExact (bs : List UInt8) : Prop :=
  (byte bs 0 ≠ 0 ∧ byte bs 0 ≠ 1) ∨ byte bs 0 = 0 ∨ byte bs 0 = 1 ∧ Zeros bs 41 40

/-- The length byte of a device id. -/
def IdLength (b : UInt8) : Prop := b.toNat ≤ maxDeviceIdBytes ∧ b ≠ 0

/-- The policy is refused, or its two presence bytes are zero or one, and an absent device zero. -/
def RebootstrapExact (bs : List UInt8) : Prop :=
  (byte bs 0 ≠ layoutV1 ∨ byte bs 2 ≠ 0 ∧ ¬IdLength (byte bs 3)) ∨
    (byte bs 1 = 0 ∨ byte bs 1 = 1) ∧ (byte bs 2 = 0 ∧ Zeros bs 3 65 ∨ byte bs 2 = 1)

/-- The policy is refused, or a clear that is not pending has no time. -/
def ApprovalExact (bs : List UInt8) : Prop :=
  (byte bs 0 ≠ layoutV1 ∨ byte bs 1 ≠ 0 ∧ byte bs 1 ≠ 1 ∨ ¬IdLength (byte bs 2) ∨
      byte bs 75 ≠ 0 ∧ byte bs 75 ≠ 1) ∨
    byte bs 75 = 0 ∧ Zeros bs 76 8 ∨ byte bs 75 = 1

/-- The cell is one without values, or every slot is filled up with zeros. -/
def RefsExact (n : Nat) (bs : List UInt8) : Prop :=
  (byte bs 0 ≠ layoutVersion ∨ ∃ i < n, 29 < (byte bs (1 + 30 * i)).toNat) ∨
    ∀ i < n, SlotFilled bs (1 + 30 * i)

/-- What a layout owes its records: a value fits the width and is read as it was, no two are alike,
and bytes of the width are refused or kept as they are exactly under this condition. -/
structure Stores {α : Type} (width : Nat) (toBytes : α → List UInt8) (fromBytes : List UInt8 → Option α)
    (Holds : List UInt8 → Prop) : Prop where
  fits : ∀ v, (toBytes v).length = width
  back : ∀ v, fromBytes (toBytes v) = some v
  distinct : ∀ v w, toBytes v = toBytes w → v = w
  exact : ∀ bs, bs.length = width → ((∀ v, fromBytes bs = some v → toBytes v = bs) ↔ Holds bs)

/-- What a cell owes its values; the sentinel is a value that no other is written like. -/
structure StoresCell {α : Type} (width : Nat) (toBytes : Option α → List UInt8)
    (fromBytes : List UInt8 → Option α) (Holds : List UInt8 → Prop) : Prop where
  fits : ∀ c, (toBytes c).length = width
  back : ∀ c, fromBytes (toBytes c) = c
  distinct : ∀ c d, toBytes c = toBytes d → c = d
  sentinel : toBytes none = List.replicate width 0xFF
  exact : ∀ bs, bs.length = width → ((∀ v, fromBytes bs = some v → toBytes (some v) = bs) ↔ Holds bs)

/-! ### The layouts one by one -/

section Bytes
variable {bs : List UInt8} {offset n : Nat}

theorem slice_cons (h : offset < bs.length) :
    slice bs offset (n + 1) = byte bs offset :: slice bs (offset + 1) n := by
  rw [slice, slice, List.drop_eq_getElem_cons h, List.take_succ_cons, byte, List.getD_eq_getElem?_getD,
    List.getElem?_eq_getElem h, Option.getD_some]

theorem slot_refuses (h : offset < bs.length) :
    principalSlot.Refuses (slice bs offset 30) ↔ 29 < (byte bs offset).toNat := by
  rw [slice_cons h]
  rfl

theorem slot_plain (h : offset < bs.length) :
    principalSlot.Plain (slice bs offset 30) ↔ SlotFilled bs offset := by
  rw [slice_cons h]
  rfl

theorem idLength_eq (h : offset < bs.length) :
    deviceIdKey.Refuses (slice bs offset 65) ↔ ¬IdLength (byte bs offset) := by
  show idLength (slice bs offset 65) = false ↔ _
  rw [slice_cons h, ← Bool.not_eq_true]
  refine not_congr ?_
  simp [idLength, IdLength]

theorem strict_reads (b : UInt8) : strict.reads b = none ↔ b ≠ 0 ∧ b ≠ 1 := by
  show (if b = 0 then some false else if b = 1 then some true else none) = none ↔ _
  by_cases h0 : b = 0
  · simp [h0]
  · by_cases h1 : b = 1
    · simp [h1]
    · simp [h0, h1]

theorem flag_refuses {p : Codec.Presence} (h : offset < bs.length) :
    (Codec.flag p).Refuses (slice bs offset 1) ↔ p.reads (byte bs offset) = none := by
  rw [slice_cons h]
  rfl

theorem flag_plain {p : Codec.Presence} (h : offset < bs.length) :
    (Codec.flag p).Plain (slice bs offset 1) ↔ byte bs offset = 0 ∨ byte bs offset = 1 := by
  rw [slice_cons h]
  show byte bs offset :: [] = [0] ∨ byte bs offset :: [] = [1] ↔ _
  simp

theorem const_refuses {v : UInt8} (h : offset < bs.length) :
    (Codec.const v).Refuses (slice bs offset 1) ↔ byte bs offset ≠ v := by
  rw [slice_cons h]
  show byte bs offset :: [] ≠ [v] ↔ _
  simp

end Bytes

/-- A layout whose bytes are read where they have its width keeps its records. -/
theorem stores_of_layout {α : Type} (f : Codec α) {fromBytes : List UInt8 → Option α}
    {Holds : List UInt8 → Prop} (hread : ∀ bs, bs.length = f.width → fromBytes bs = f.read bs)
    (hholds : ∀ bs, bs.length = f.width → (f.Refuses bs ∨ f.Plain bs ↔ Holds bs)) :
    Stores f.width f.write fromBytes Holds where
  fits := f.length_write
  back v := by rw [hread _ (f.length_write v), f.read_write]
  distinct _ _ := f.write_inj
  exact bs h := by
    rw [← hholds bs h, ← f.exact_iff h, hread bs h]
    rfl

theorem settlement_exact (bs : List UInt8) (h : bs.length = settlementLayout.width) :
    settlementLayout.Refuses bs ∨ settlementLayout.Plain bs ↔ SettlementExact bs := by
  have hlen : bs.length = 90 := h
  have hrefuses : settlementLayout.Refuses bs ↔
      principalSlot.Refuses (slice bs 2 30) ∨ claimField.Refuses (slice bs 64 13) ∨
        dispositionField.Refuses (slice bs 77 9) := by
    show False ∨ principalSlot.Refuses ((bs.drop 2).take 30) ∨ False ∨ False ∨
      claimField.Refuses (((((bs.drop 2).drop 30).drop 16).drop 16).take 13) ∨
        dispositionField.Refuses ((((((bs.drop 2).drop 30).drop 16).drop 16).drop 13).take 9) ∨
          False ↔ _
    simp only [List.drop_drop, false_or, or_false, slice]
  have hplain : settlementLayout.Plain bs ↔
      principalSlot.Plain (slice bs 2 30) ∧ claimField.Plain (slice bs 64 13) ∧
        dispositionField.Plain (slice bs 77 9) := by
    show True ∧ principalSlot.Plain ((bs.drop 2).take 30) ∧ True ∧ True ∧
      claimField.Plain (((((bs.drop 2).drop 30).drop 16).drop 16).take 13) ∧
        dispositionField.Plain ((((((bs.drop 2).drop 30).drop 16).drop 16).drop 13).take 9) ∧
          True ↔ _
    simp only [List.drop_drop, true_and, and_true, slice]
  have hclaim : claimField.Refuses (slice bs 64 13) ↔ False := by
    rw [slice_cons (by omega), claimField, Codec.option_refuses_cons]
    exact ⟨fun h => h.elim (by rintro ⟨⟩) fun h => h.2.elim id id, False.elim⟩
  have hclaimPlain : claimField.Plain (slice bs 64 13) ↔
      byte bs 64 = 0 ∧ Zeros bs 65 12 ∨ byte bs 64 = 1 := by
    rw [slice_cons (by omega), claimField, Codec.option_plain_cons]
    exact or_congr Iff.rfl (and_iff_left ⟨trivial, trivial⟩)
  have hdisposition : dispositionField.Refuses (slice bs 77 9) ↔ 2 < (byte bs 77).toNat := by
    rw [slice_cons (by omega)]
    rfl
  have hdispositionPlain : dispositionField.Plain (slice bs 77 9) ↔
      byte bs 77 = 1 ∨ Zeros bs 78 8 := by
    rw [slice_cons (by omega)]
    rfl
  rw [hrefuses, hplain, slot_refuses (by omega), slot_plain (by omega), hclaim, hclaimPlain,
    hdisposition, hdispositionPlain, false_or]
  rfl

theorem receipt_exact (bs : List UInt8) (h : bs.length = receiptLayout.width) :
    receiptLayout.Refuses bs ∨ receiptLayout.Plain bs ↔ ReceiptExact bs := by
  have hlen : bs.length = 81 := h
  have hbytes : bs = byte bs 0 :: slice bs 1 80 := by
    rw [← slice_cons (by omega), slice, List.drop_zero, List.take_of_length_le (by omega)]
  have hzeros : (((slice bs 1 80).drop 32).drop 8) = slice bs 41 40 := by
    rw [List.drop_drop, slice, slice, List.drop_take, List.drop_drop]
  have hrefuses : receiptLayout.Refuses bs ↔ byte bs 0 ≠ 0 ∧ byte bs 0 ≠ 1 := by
    rw [← strict_reads]
    conv_lhs => rw [hbytes]
    refine (Codec.sum_refuses_cons (e := receipt_widths)).trans ⟨fun hor => ?_, .inl⟩
    rcases hor with hnone | ⟨_, hhash | hno | hno | hno | hno⟩ | ⟨_, hhash | hno | hno⟩
    · exact hnone
    · cases hhash
    · exact hno.elim
    · exact hno.elim
    · exact hno.elim
    · exact hno.elim
    · cases hhash
    · exact hno.elim
    · exact hno.elim
  have hplain : receiptLayout.Plain bs ↔ byte bs 0 = 0 ∨ byte bs 0 = 1 ∧ Zeros bs 41 40 := by
    conv_lhs => rw [hbytes]
    refine (Codec.sum_plain_cons (e := receipt_widths)).trans (or_congr ?_ (and_congr_right fun _ => ?_))
    · exact and_iff_left ⟨trivial, trivial, trivial, trivial, trivial⟩
    · rw [Zeros, ← hzeros]
      exact ⟨fun hall => hall.2.2, fun hzero => ⟨trivial, trivial, hzero⟩⟩
  rw [hrefuses, hplain]
  rfl

theorem rebootstrap_exact (bs : List UInt8) (h : bs.length = rebootstrapLayout.width) :
    rebootstrapLayout.Refuses bs ∨ rebootstrapLayout.Plain bs ↔ RebootstrapExact bs := by
  have hlen : bs.length = 76 := h
  have hfirst : bs.take 1 = slice bs 0 1 := rfl
  have hrefuses : rebootstrapLayout.Refuses bs ↔ (Codec.const layoutV1).Refuses (slice bs 0 1) ∨
      (Codec.flag notZero).Refuses (slice bs 1 1) ∨
        (Codec.option notZero deviceIdKey).Refuses (slice bs 2 66) := by
    show _ ∨ _ ∨ (Codec.option notZero deviceIdKey).Refuses (((bs.drop 1).drop 1).take 66) ∨ False ↔ _
    rw [or_false, List.drop_drop]
    rfl
  have hplain : rebootstrapLayout.Plain bs ↔ (Codec.flag notZero).Plain (slice bs 1 1) ∧
      (Codec.option notZero deviceIdKey).Plain (slice bs 2 66) := by
    show True ∧ _ ∧ (Codec.option notZero deviceIdKey).Plain (((bs.drop 1).drop 1).take 66) ∧ True ↔ _
    rw [true_and, and_true, List.drop_drop]
    rfl
  have hallow : (Codec.flag notZero).Refuses (slice bs 1 1) ↔ False := by
    rw [flag_refuses (by omega)]
    exact ⟨nofun, False.elim⟩
  have hpresent : ∀ b : UInt8, notZero.reads b = some true ↔ b ≠ 0 := fun b => by simp [notZero]
  have hdevice : (Codec.option notZero deviceIdKey).Refuses (slice bs 2 66) ↔
      byte bs 2 ≠ 0 ∧ ¬IdLength (byte bs 3) := by
    rw [slice_cons (by omega), Codec.option_refuses_cons, idLength_eq (by omega), hpresent]
    exact ⟨fun hor => hor.resolve_left nofun, .inr⟩
  have hdevicePlain : (Codec.option notZero deviceIdKey).Plain (slice bs 2 66) ↔
      byte bs 2 = 0 ∧ Zeros bs 3 65 ∨ byte bs 2 = 1 := by
    rw [slice_cons (by omega), Codec.option_plain_cons]
    exact or_congr Iff.rfl (and_iff_left trivial)
  rw [hrefuses, hplain, const_refuses (by omega), hallow, hdevice, flag_plain (by omega),
    hdevicePlain, false_or]
  rfl

theorem approval_exact (bs : List UInt8) (h : bs.length = approvalLayout.width) :
    approvalLayout.Refuses bs ∨ approvalLayout.Plain bs ↔ ApprovalExact bs := by
  have hlen : bs.length = 84 := h
  have hrest : ((((bs.drop 1).drop 1).drop 65).drop 8) = slice bs 75 9 := by
    rw [List.drop_drop, List.drop_drop, List.drop_drop, slice,
      List.take_of_length_le (by rw [List.length_drop]; omega)]
  have hrefuses : approvalLayout.Refuses bs ↔ (Codec.const layoutV1).Refuses (slice bs 0 1) ∨
      (Codec.flag strict).Refuses (slice bs 1 1) ∨ deviceIdKey.Refuses (slice bs 2 65) ∨
        (Codec.option strict (.le 8)).Refuses (slice bs 75 9) := by
    show _ ∨ _ ∨ deviceIdKey.Refuses (((bs.drop 1).drop 1).take 65) ∨ False ∨
      (Codec.option strict (.le 8)).Refuses ((((bs.drop 1).drop 1).drop 65).drop 8) ↔ _
    rw [false_or, hrest, List.drop_drop]
    rfl
  have hplain : approvalLayout.Plain bs ↔ (Codec.flag strict).Plain (slice bs 1 1) ∧
      (Codec.option strict (.le 8)).Plain (slice bs 75 9) := by
    show True ∧ _ ∧ True ∧ True ∧
      (Codec.option strict (.le 8)).Plain ((((bs.drop 1).drop 1).drop 65).drop 8) ↔ _
    rw [true_and, true_and, true_and, hrest]
    rfl
  have hpending : (Codec.option strict (.le 8)).Refuses (slice bs 75 9) ↔
      byte bs 75 ≠ 0 ∧ byte bs 75 ≠ 1 := by
    rw [slice_cons (by omega), Codec.option_refuses_cons, strict_reads]
    exact ⟨fun hor => hor.resolve_right fun hno => hno.2, .inl⟩
  have hpendingPlain : (Codec.option strict (.le 8)).Plain (slice bs 75 9) ↔
      byte bs 75 = 0 ∧ Zeros bs 76 8 ∨ byte bs 75 = 1 := by
    rw [slice_cons (by omega), Codec.option_plain_cons]
    exact or_congr Iff.rfl (and_iff_left trivial)
  rw [hrefuses, hplain, const_refuses (by omega), flag_refuses (by omega), strict_reads,
    idLength_eq (by omega), hpending, flag_plain (by omega), hpendingPlain, ApprovalExact]
  -- A flag that is not refused is zero or one.
  constructor
  · rintro (hno | ⟨_, hok⟩)
    · exact .inl hno
    · exact .inr hok
  · rintro (hno | hok)
    · exact .inl hno
    · by_cases hflag : byte bs 1 = 0 ∨ byte bs 1 = 1
      · exact .inr ⟨hflag, hok⟩
      · exact .inl (.inr (.inl (not_or.1 hflag)))

/-! ### The cells -/

section Cell
variable {α : Type} (slot : Codec α) (n : Nat)

theorem cellEncodedLen_pos : 0 < cellEncodedLen slot n := by
  rw [cellEncodedLen]
  omega

theorem length_cellToBytes (c : Option (Slots α n)) :
    (cellToBytes slot n c).length = cellEncodedLen slot n := by
  cases c with
  | none => exact List.length_replicate
  | some values =>
    rw [cellToBytes, List.length_cons, (slot.array n).length_write, Codec.array_width, cellEncodedLen,
      Nat.add_comm]

/-- Bytes of the width whose first is the version's are read slot by slot. -/
theorem cellFromBytes_cons {rest : List UInt8} (h : rest.length + 1 = cellEncodedLen slot n) :
    cellFromBytes slot n (layoutVersion :: rest) = (slot.array n).read rest := by
  rw [cellFromBytes, if_neg (not_not.2 (by rw [List.length_cons, h])), if_neg, if_neg]
  · rfl
  · exact not_not.2 rfl
  · rw [List.all_cons]
    exact nofun

theorem cellFromBytes_other {bs : List UInt8} (h : bs.head? ≠ some layoutVersion) :
    cellFromBytes slot n bs = none := by
  rw [cellFromBytes, if_pos h, ite_self, ite_self]

theorem cell_back (c : Option (Slots α n)) : cellFromBytes slot n (cellToBytes slot n c) = c := by
  cases c with
  | none =>
    refine cellFromBytes_other slot n fun h => ?_
    have hpos := cellEncodedLen_pos slot n
    rw [cellToBytes, List.head?_replicate, if_neg (by omega)] at h
    exact absurd h (by decide)
  | some values =>
    have hlen := length_cellToBytes slot n (some values)
    rw [cellToBytes, List.length_cons] at hlen
    rw [cellToBytes, cellFromBytes_cons slot n hlen, (slot.array n).read_write]

/-- A cell keeps its values where each slot does. -/
theorem cell_stores {Holds : List UInt8 → Prop}
    (hholds : ∀ bs, bs.length = cellEncodedLen slot n →
      ((byte bs 0 ≠ layoutVersion ∨ ∃ i < n, slot.Refuses (slice (bs.drop 1) (slot.width * i) slot.width)) ∨
        (∀ i < n, slot.Plain (slice (bs.drop 1) (slot.width * i) slot.width)) ↔ Holds bs)) :
    StoresCell (cellEncodedLen slot n) (cellToBytes slot n) (cellFromBytes slot n) Holds where
  fits := length_cellToBytes slot n
  back := cell_back slot n
  distinct c d h := by
    rw [← cell_back slot n c, h, cell_back]
  sentinel := rfl
  exact bs h := by
    rw [← hholds bs h, ← Codec.array_refuses_iff, ← Codec.array_plain_iff]
    cases bs with
    | nil => exact absurd h (Nat.ne_of_lt (cellEncodedLen_pos slot n))
    | cons b rest =>
      show _ ↔ (b ≠ layoutVersion ∨ (slot.array n).Refuses rest) ∨ (slot.array n).Plain rest
      rw [List.length_cons] at h
      have hrest : rest.length = (slot.array n).width := by
        rw [Codec.array_width]
        rw [cellEncodedLen] at h
        omega
      by_cases hb : b = layoutVersion
      · subst hb
        rw [cellFromBytes_cons slot n h, or_iff_right (not_not.2 rfl), ← (slot.array n).exact_iff hrest]
        exact forall₂_congr fun v _ => by rw [cellToBytes, List.cons.injEq, and_iff_right rfl]
      · rw [cellFromBytes_other slot n fun hhead : (b :: rest).head? = _ =>
          hb (Option.some.inj hhead)]
        exact ⟨fun _ => .inl (.inl hb), fun _ => nofun⟩

end Cell

theorem refs_exact (n : Nat) (bs : List UInt8) (h : bs.length = cellEncodedLen principalSlot n) :
    (byte bs 0 ≠ layoutVersion ∨ ∃ i < n, principalSlot.Refuses (slice (bs.drop 1) (30 * i) 30)) ∨
      (∀ i < n, principalSlot.Plain (slice (bs.drop 1) (30 * i) 30)) ↔ RefsExact n bs := by
  have hlen : bs.length = 1 + 30 * n := h
  have hslot : ∀ i, slice (bs.drop 1) (30 * i) 30 = slice bs (1 + 30 * i) 30 := fun i => by
    rw [slice, slice, List.drop_drop]
  have hin : ∀ i < n, 1 + 30 * i < bs.length := fun i hi => by omega
  simp only [hslot]
  refine or_congr (or_congr_right (exists_congr fun i => and_congr_right fun hi => ?_))
    (forall₂_congr fun i hi => ?_)
  · exact slot_refuses (hin i hi)
  · exact slot_plain (hin i hi)

/-! ### Every layout -/

/-- The stored records and cells keep what is written in them, and a corrupt one is refused or kept
as it is just where its bytes are filled up as the writer does it; a number has no such bytes. -/
theorem stored_records_exact (n : Nat) :
    Stores 90 DepositSettlementV1.toBytes DepositSettlementV1.fromBytes SettlementExact ∧
      Stores 81 DepositReceiptV1.toBytes DepositReceiptV1.fromBytes ReceiptExact ∧
      Stores 76 RebootstrapPolicyV1.toBytes RebootstrapPolicyV1.fromBytes RebootstrapExact ∧
      Stores 84 DeviceApprovalPolicyV1.toBytes DeviceApprovalPolicyV1.fromBytes ApprovalExact ∧
      StoresCell (1 + 30 * n) (PrincipalRefs.toBytes (n := n)) (PrincipalRefs.fromBytes n) (RefsExact n) ∧
      StoresCell (1 + 16 * n) (Scalars.toBytes (n := n)) (Scalars.fromBytes n) fun _ => True := by
  refine ⟨?_, ?_, ?_, ?_, ?_, ?_⟩
  · refine stores_of_layout settlementLayout (fun bs h => ?_) settlement_exact
    have hlen : bs.length = 90 := h
    rw [DepositSettlementV1.fromBytes, depositSettlementEncodedLen, if_neg (by omega),
      List.take_of_length_le (by omega)]
  · refine stores_of_layout receiptLayout (fun bs h => ?_) receipt_exact
    have hlen : bs.length = 81 := h
    rw [DepositReceiptV1.fromBytes, depositReceiptEncodedLen, if_neg (by omega),
      List.take_of_length_le (by omega)]
  · exact stores_of_layout rebootstrapLayout (fun _ h => if_pos h) rebootstrap_exact
  · exact stores_of_layout approvalLayout (fun _ h => if_pos h) approval_exact
  · exact cell_stores principalSlot n (refs_exact n)
  · refine cell_stores (.be 16) n fun bs _ => iff_true_intro (.inr fun _ _ => trivial)

/-- A settlement whose claim is marked by a two. -/
def looseSettlement : List UInt8 :=
  List.replicate 64 0 ++ 2 :: List.replicate 25 0

/-- The claim is read as absent, and the record written anew is another one. -/
theorem loose_claim_dropped : looseSettlement.length = 90 ∧
    (DepositSettlementV1.fromBytes looseSettlement).map (fun s => s.claim) = some none ∧
      (DepositSettlementV1.fromBytes looseSettlement).map (fun s => decide (s.toBytes = looseSettlement)) =
        some false := by
  decide +kernel

end StshProtocol.StoredRecords
