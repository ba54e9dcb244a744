import StshProtocol.Vesting.Canister
import StshProtocol.Foundation.KeyedTotal

/-! What the canister holds of each beneficiary, and what its messages do to it.

The tombstones of a beneficiary are the rows of one key range, so their number counts exactly
the operations resolved (`count_insert`), and every message concerns one beneficiary only. -/
namespace StshProtocol.Vesting
open Foundation ShieldedPool StableMap

/-! ### Keys and memos -/

section Keys
variable {b c : PrincipalBytes} {seq n : Nat}

theorem length_byte (b : PrincipalBytes) : (UInt8.ofNat b.asSlice.length).toNat = b.asSlice.length := by
  rw [UInt8.toNat_ofNat']
  exact Nat.mod_eq_of_lt (Nat.lt_of_le_of_lt b.short (by decide))

/-- The bytes of a principal tell where they end. -/
theorem sized_append_inj {x y : Bytes} (h : b.sized ++ x = c.sized ++ y) : b = c ∧ x = y := by
  simp only [PrincipalBytes.sized, List.cons_append, List.cons.injEq] at h
  obtain ⟨hhead, htail⟩ := h
  have hlen : b.asSlice.length = c.asSlice.length := by
    rw [← length_byte b, ← length_byte c, hhead]
  obtain ⟨hslice, hrest⟩ := List.append_inj htail hlen
  cases b
  cases c
  cases hslice
  exact ⟨rfl, hrest⟩

theorem sized_prefix_iff {x : Bytes} : b.sized.isPrefixOf (c.sized ++ x) = true ↔ b = c := by
  rw [List.isPrefixOf_iff_prefix]
  constructor
  · rintro ⟨y, hy⟩
    exact (sized_append_inj hy).1
  · rintro rfl
    exact ⟨x, rfl⟩

theorem principalKey_inj (h : principalKey b = principalKey c) : b = c := by
  cases b
  cases c
  cases h
  rfl

theorem toBe_inj {w m n : Nat} (hm : m < 256 ^ w) (hn : n < 256 ^ w)
    (h : Bytes.toBe w m = Bytes.toBe w n) : m = n := by
  rw [← Bytes.ofBe_toBe hm, h, Bytes.ofBe_toBe hn]

theorem tombstoneKey_inj (hseq : seq ≤ u64Max) (hn : n ≤ u64Max)
    (h : tombstoneKey b seq = tombstoneKey c n) : b = c ∧ seq = n := by
  obtain ⟨hb, hbytes⟩ := sized_append_inj h
  refine ⟨hb, toBe_inj ?_ ?_ hbytes⟩
  · exact Nat.lt_of_le_of_lt hseq (by decide)
  · exact Nat.lt_of_le_of_lt hn (by decide)

theorem claimMemo_inj (hseq : seq ≤ u64Max) (hn : n ≤ u64Max)
    (h : claimMemo b seq = claimMemo c n) : b = c ∧ seq = n :=
  tombstoneKey_inj hseq hn (List.append_cancel_left h)

theorem claimMemo_payee (h : claimMemo b seq = claimMemo c n) : b = c :=
  (sized_append_inj (List.append_cancel_left h)).1

theorem toPrincipal_inj (h : b.toPrincipal = c.toPrincipal) : b = c := by
  have hlen : ∀ p : PrincipalBytes,
      (p.sized ++ List.replicate (29 - p.asSlice.length) (0 : UInt8)).length = 30 := fun p => by
    have := p.short
    simp only [PrincipalBytes.sized, List.length_append, List.length_cons, List.length_replicate]
    omega
  have hlt : ∀ p : PrincipalBytes,
      Bytes.ofBe (p.sized ++ List.replicate (29 - p.asSlice.length) 0) < 2 ^ 240 := fun p => by
    have := Bytes.ofBe_lt (p.sized ++ List.replicate (29 - p.asSlice.length) 0)
    rwa [hlen] at this
  have hnat := congrArg BitVec.toNat h
  rw [PrincipalBytes.toPrincipal, PrincipalBytes.toPrincipal, BitVec.toNat_ofNat, BitVec.toNat_ofNat,
    Nat.mod_eq_of_lt (hlt b), Nat.mod_eq_of_lt (hlt c)] at hnat
  have hbytes := congrArg (Bytes.toBe 30) hnat
  rw [Bytes.toBe_ofBe (hlen b), Bytes.toBe_ofBe (hlen c)] at hbytes
  exact (sized_append_inj hbytes).1

/-- The keys of two principals are ordered as their bytes are. -/
theorem compare_sized_of_ne (h : b ≠ c) (x y : Bytes) :
    compare (b.sized ++ x) (c.sized ++ y) = compare b.sized c.sized := by
  by_cases hlen : b.asSlice.length = c.asSlice.length
  · refine ByteKeys.compare_append_of_ne ?_ (fun heq => ?_) x y
    · simp only [PrincipalBytes.sized, List.length_cons, hlen]
    · exact h (sized_append_inj (congrArg (· ++ []) heq)).1
  · have hhead : UInt8.ofNat b.asSlice.length ≠ UInt8.ofNat c.asSlice.length := fun heq =>
      hlen (by rw [← length_byte b, ← length_byte c, heq])
    rw [PrincipalBytes.sized, PrincipalBytes.sized, List.cons_append, List.cons_append,
      ByteKeys.compare_cons_of_ne hhead, ByteKeys.compare_cons_of_ne hhead]

theorem compare_tombstoneKey (hseq : seq ≤ u64Max) (hn : n ≤ u64Max) :
    compare (tombstoneKey b seq) (tombstoneKey b n) = compare seq n := by
  rw [tombstoneKey, tombstoneKey, ByteKeys.compare_append, ByteKeys.compare_eq_ofBe (by simp),
    Bytes.ofBe_toBe (Nat.lt_of_le_of_lt hseq (by decide)),
    Bytes.ofBe_toBe (Nat.lt_of_le_of_lt hn (by decide))]

/-- The range counted for a beneficiary has its own keys, and nobody else's. -/
theorem inRange_tombstoneKey (h : seq < u64Max) :
    InRange (tombstoneKey b 0) (tombstoneKey b u64Max) (tombstoneKey c seq) ↔ c = b := by
  constructor
  · rintro ⟨hlo, hhi⟩
    by_contra hne
    rw [tombstoneKey, tombstoneKey, compare_sized_of_ne (Ne.symm hne)] at hlo
    rw [tombstoneKey, tombstoneKey, compare_sized_of_ne hne] at hhi
    rw [Std.OrientedOrd.eq_swap, hhi] at hlo
    exact nomatch hlo
  · rintro rfl
    refine ⟨?_, ?_⟩
    · rw [compare_tombstoneKey (Nat.zero_le _) (Nat.le_of_lt h)]
      cases hc : compare 0 seq with
      | lt => rfl
      | eq => rfl
      | gt => exact absurd (Nat.compare_eq_gt.1 hc) (Nat.not_lt_zero _)
    · rw [compare_tombstoneKey (Nat.le_of_lt h) (Nat.le_refl _)]
      exact Nat.compare_eq_lt.2 h

end Keys

/-! ### Accounts -/

/-- What is held of one beneficiary: its schedule and marker, the number of its tombstones, and
the sum of the amounts of those executed. -/
structure Account where
  schedule : Option VestingSchedule
  marker : Option TransferOutcomeMarker
  count : Nat
  executed : Nat

/-- What a tombstone counts for: its amount, if it is the beneficiary's and executed. -/
def paidOut (b : PrincipalBytes) (key : Bytes) (t : TerminalClaimTombstone) : Nat :=
  if b.sized.isPrefixOf key ∧ t.resolution = .executed then t.amount.getD 0 else 0

namespace VestingState

def schedule (s : VestingState) (b : PrincipalBytes) : Option VestingSchedule :=
  s.schedules[principalKey b]?

def marker (s : VestingState) (b : PrincipalBytes) : Option TransferOutcomeMarker :=
  s.transferOutcomeUnknown[principalKey b]?

def tombstone (s : VestingState) (b : PrincipalBytes) (seq : Nat) : Option TerminalClaimTombstone :=
  s.terminalClaimTombstones[tombstoneKey b seq]?

/-- How many tombstones the beneficiary has. -/
def count (s : VestingState) (b : PrincipalBytes) : Nat :=
  s.terminalClaimTombstones.rangeCount (tombstoneKey b 0) (tombstoneKey b u64Max)

/-- The sum of the amounts of the beneficiary's executed tombstones. -/
def executedTotal (s : VestingState) (b : PrincipalBytes) : Nat :=
  s.terminalClaimTombstones.sumOn (paidOut b)

def account (s : VestingState) (b : PrincipalBytes) : Account :=
  ⟨s.schedule b, s.marker b, s.count b, s.executedTotal b⟩

/-- The tombstones of a beneficiary are those of its first operations. -/
def Numbered (s : VestingState) : Prop :=
  ∀ b seq, seq ≤ u64Max → ((s.tombstone b seq).isSome ↔ seq < s.count b)

theorem nextClaimSeq_eq {s : VestingState} {b : PrincipalBytes} {n : Nat} :
    s.nextClaimSeq b = some n ↔ n = s.count b ∧ s.count b ≤ usizeMax := by
  simp only [nextClaimSeq, count]
  split
  · next h => simp only [Option.some.injEq, h, and_true, eq_comm]
  · next h => simp only [h, and_false, reduceCtorEq]

end VestingState

theorem usizeMax_lt : VestingState.usizeMax < u64Max := by decide

/-- An operation: its number, its amount and the time it carries. -/
structure Operation where
  claimSeq : Nat
  amount : Nat
  createdAtTimeNs : Nat

def Operation.marker (o : Operation) (unknown : Bool) : TransferOutcomeMarker where
  unknown := unknown
  pendingAmount := some o.amount
  claimSeq := some o.claimSeq
  createdAtTimeNs := some o.createdAtTimeNs

def Operation.transfer (o : Operation) (b : PrincipalBytes) : IcrcTransferArgs :=
  claimTransfer b o.amount o.claimSeq o.createdAtTimeNs

def Operation.task (o : Operation) (b : PrincipalBytes) : ClaimTask where
  beneficiary := b
  claimable := o.amount
  opMarker := o.marker false

def Operation.tombstone (o : Operation) (resolution : ClaimResolution) (recordedAtNs : Nat) :
    TerminalClaimTombstone where
  claimSeq := some o.claimSeq
  amount := some o.amount
  createdAtTimeNs := some o.createdAtTimeNs
  resolution := resolution
  recordedAtNs := recordedAtNs

/-- The operation is resolved: as executed, or taken off what is claimed. -/
def Account.resolve (a : Account) (o : Operation) : ClaimResolution → Account
  | .executed =>
    {a with
      marker := none
      count := a.count + 1
      executed := a.executed + o.amount}
  | .reverted =>
    {a with
      schedule := a.schedule.map fun sch => {sch with claimed := sch.claimed - o.amount}
      marker := none
      count := a.count + 1}

namespace VestingState
variable {s s' : VestingState} {b : PrincipalBytes}

/-! ### What a write does to the accounts -/

theorem account_putMarker (s : VestingState) (b : PrincipalBytes) (m : TransferOutcomeMarker) :
    (s.putMarker b m).account = Function.update s.account b {s.account b with marker := some m} := by
  funext c
  by_cases hc : c = b
  · subst hc
    rw [Function.update_self]
    show (⟨_, (s.transferOutcomeUnknown.insert _ m)[principalKey c]?, _, _⟩ : Account) = _
    rw [get_insert, if_pos rfl]
    rfl
  · rw [Function.update_of_ne hc]
    show (⟨_, (s.transferOutcomeUnknown.insert _ m)[principalKey c]?, _, _⟩ : Account) = _
    rw [get_insert_ne _ fun h => hc (principalKey_inj h).symm]
    rfl

theorem account_putSchedule (s : VestingState) (b : PrincipalBytes) (sch : VestingSchedule) :
    (s.putSchedule b sch).account =
      Function.update s.account b {s.account b with schedule := some sch} := by
  funext c
  by_cases hc : c = b
  · subst hc
    rw [Function.update_self]
    show (⟨(s.schedules.insert _ sch)[principalKey c]?, _, _, _⟩ : Account) = _
    rw [get_insert, if_pos rfl]
    rfl
  · rw [Function.update_of_ne hc]
    show (⟨(s.schedules.insert _ sch)[principalKey c]?, _, _, _⟩ : Account) = _
    rw [get_insert_ne _ fun h => hc (principalKey_inj h).symm]
    rfl

theorem revertClaimed_of_none (h : s.schedule b = none) (n : Nat) : s.revertClaimed b n = s := by
  have hnone : s.schedules[principalKey b]? = none := h
  simp only [revertClaimed, hnone]

theorem revertClaimed_of_some {sch : VestingSchedule} (h : s.schedule b = some sch) (n : Nat) :
    s.revertClaimed b n = s.putSchedule b {sch with claimed := sch.claimed - n} := by
  have hsome : s.schedules[principalKey b]? = some sch := h
  simp only [revertClaimed, hsome]

theorem account_revertClaimed (s : VestingState) (b : PrincipalBytes) (n : Nat) :
    (s.revertClaimed b n).account = Function.update s.account b {s.account b with
      schedule := (s.schedule b).map fun sch => {sch with claimed := sch.claimed - n}} := by
  cases h : s.schedule b with
  | none =>
    rw [revertClaimed_of_none h]
    refine (Function.update_eq_self_iff.2 ?_).symm
    show (⟨none, _, _, _⟩ : Account) = ⟨s.schedule b, _, _, _⟩
    rw [h]
    rfl
  | some sch =>
    rw [revertClaimed_of_some h]
    exact account_putSchedule _ _ _

def putTombstone (s : VestingState) (key : Bytes) (t : TerminalClaimTombstone) : VestingState :=
  {s with terminalClaimTombstones := s.terminalClaimTombstones.insert key t}

/-- The tombstone of an operation is written, and its marker removed. -/
def bury (s : VestingState) (b : PrincipalBytes) (o : Operation) (resolution : ClaimResolution)
    (now : Nat) : VestingState :=
  (s.putTombstone (tombstoneKey b o.claimSeq) (o.tombstone resolution now)).removeMarker b

theorem paidOut_tombstoneKey (b c : PrincipalBytes) (seq : Nat) (t : TerminalClaimTombstone) :
    paidOut b (tombstoneKey c seq) t =
      if b = c ∧ t.resolution = .executed then t.amount.getD 0 else 0 := by
  rw [paidOut, tombstoneKey]
  simp only [sized_prefix_iff]

section Bury
variable {o : Operation} {resolution : ClaimResolution} {now : Nat}

theorem count_bury (hnum : s.Numbered) (hseq : o.claimSeq = s.count b) (hle : s.count b ≤ usizeMax)
    (c : PrincipalBytes) :
    (s.bury b o resolution now).count c = s.count c + if c = b then 1 else 0 := by
  have hlt := usizeMax_lt
  have hnew : s.tombstone b o.claimSeq = none := by
    have := hnum b o.claimSeq (by omega)
    rw [hseq] at this ⊢
    simpa using this
  have hrow : (s.bury b o resolution now).count c = s.count c +
      if InRange (tombstoneKey c 0) (tombstoneKey c u64Max) (tombstoneKey b o.claimSeq) then 1
      else 0 := rangeCount_insert hnew _
  have hrange : InRange (tombstoneKey c 0) (tombstoneKey c u64Max) (tombstoneKey b o.claimSeq) ↔
      c = b := (inRange_tombstoneKey (by omega)).trans eq_comm
  rw [hrow]
  simp only [hrange]

theorem tombstone_bury (hseq : o.claimSeq ≤ u64Max) {c : PrincipalBytes} {n : Nat}
    (hn : n ≤ u64Max) : (s.bury b o resolution now).tombstone c n =
      if c = b ∧ n = o.claimSeq then some (o.tombstone resolution now) else s.tombstone c n := by
  show (s.terminalClaimTombstones.insert (tombstoneKey b o.claimSeq) _)[tombstoneKey c n]? = _
  rw [get_insert_at]
  refine ite_congr (propext ⟨fun h => tombstoneKey_inj hn hseq h, ?_⟩) (fun _ => rfl) fun _ => rfl
  rintro ⟨rfl, rfl⟩
  rfl

theorem numbered_bury (hnum : s.Numbered) (hseq : o.claimSeq = s.count b)
    (hle : s.count b ≤ usizeMax) : (s.bury b o resolution now).Numbered := by
  intro c n hn
  have hlt := usizeMax_lt
  have hold := hnum c n hn
  rw [tombstone_bury (by omega) hn, count_bury hnum hseq hle, hseq]
  by_cases hcb : c = b
  · subst hcb
    by_cases hlast : n = s.count c
    · simp [hlast]
    · simp only [true_and, hlast, if_false, if_true, hold]
      omega
  · simp only [hcb, false_and, if_false, Nat.add_zero]
    exact hold

theorem executedTotal_bury (hnum : s.Numbered) (hseq : o.claimSeq = s.count b)
    (hle : s.count b ≤ usizeMax) (c : PrincipalBytes) :
    (s.bury b o resolution now).executedTotal c =
      s.executedTotal c + if c = b ∧ resolution = .executed then o.amount else 0 := by
  have hlt := usizeMax_lt
  have hnew : s.tombstone b o.claimSeq = none := by
    have := hnum b o.claimSeq (by omega)
    rw [hseq] at this ⊢
    simpa using this
  have hsum : (s.bury b o resolution now).executedTotal c = s.executedTotal c +
      paidOut c (tombstoneKey b o.claimSeq) (o.tombstone resolution now) := sumOn_insert hnew _
  rw [hsum, paidOut_tombstoneKey]
  rfl

theorem marker_bury (c : PrincipalBytes) :
    (s.bury b o resolution now).marker c = if c = b then none else s.marker c := by
  show (s.transferOutcomeUnknown.erase (principalKey b))[principalKey c]? = _
  rw [get_erase_at]
  refine ite_congr (propext ⟨fun h => principalKey_inj h, ?_⟩) (fun _ => rfl) fun _ => rfl
  rintro rfl
  rfl

/-- A tombstone concerns the account of its own beneficiary. -/
theorem account_bury (hnum : s.Numbered) (hseq : o.claimSeq = s.count b)
    (hle : s.count b ≤ usizeMax) :
    (s.bury b o resolution now).account = Function.update s.account b
      {s.account b with
        marker := none
        count := s.count b + 1
        executed := s.executedTotal b + if resolution = .executed then o.amount else 0} := by
  funext c
  have haccount : (s.bury b o resolution now).account c =
      ⟨s.schedule c, if c = b then none else s.marker c, s.count c + if c = b then 1 else 0,
        s.executedTotal c + if c = b ∧ resolution = .executed then o.amount else 0⟩ := by
    have hmarker : (s.bury b o resolution now).marker c = if c = b then none else s.marker c :=
      marker_bury c
    rw [← hmarker, ← count_bury hnum hseq hle, ← executedTotal_bury hnum hseq hle]
    rfl
  rw [haccount]
  by_cases hc : c = b
  · subst hc
    rw [Function.update_self]
    simp only [if_true, true_and]
    rfl
  · rw [Function.update_of_ne hc]
    simp only [hc, if_false, false_and, Nat.add_zero]
    rfl

/-- The operation is resolved. -/
def settle (s : VestingState) (b : PrincipalBytes) (o : Operation) (resolution : ClaimResolution)
    (now : Nat) : VestingState :=
  match resolution with
  | .executed => s.bury b o .executed now
  | .reverted => (s.revertClaimed b o.amount).bury b o .reverted now

theorem revertClaimed_tombstones (s : VestingState) (b : PrincipalBytes) (n : Nat) :
    (s.revertClaimed b n).terminalClaimTombstones = s.terminalClaimTombstones := by
  unfold revertClaimed
  split <;> rfl

theorem revertClaimed_operations (s : VestingState) (b : PrincipalBytes) (n : Nat) :
    (s.revertClaimed b n).operations = s.operations := by
  unfold revertClaimed
  split <;> rfl

theorem settle_operations : (s.settle b o resolution now).operations = s.operations := by
  cases resolution with
  | executed => rfl
  | reverted => exact revertClaimed_operations _ _ _

/-- The numbers of tombstones are read off the tombstones. -/
theorem count_congr (h : s'.terminalClaimTombstones = s.terminalClaimTombstones)
    (c : PrincipalBytes) : s'.count c = s.count c := by
  rw [count, count, h]

theorem tombstone_congr (h : s'.terminalClaimTombstones = s.terminalClaimTombstones)
    (c : PrincipalBytes) (n : Nat) : s'.tombstone c n = s.tombstone c n := by
  rw [tombstone, tombstone, h]

theorem numbered_congr (h : s'.terminalClaimTombstones = s.terminalClaimTombstones)
    (hnum : s.Numbered) : s'.Numbered := fun c n hn => by
  rw [tombstone_congr h, count_congr h]
  exact hnum c n hn

theorem numbered_settle (hnum : s.Numbered) (hseq : o.claimSeq = s.count b)
    (hle : s.count b ≤ usizeMax) : (s.settle b o resolution now).Numbered := by
  cases resolution with
  | executed => exact numbered_bury hnum hseq hle
  | reverted =>
    have hsame := revertClaimed_tombstones s b o.amount
    have hcount := count_congr hsame b
    exact numbered_bury (numbered_congr hsame hnum) (by omega) (by omega)

/-- Resolving an operation concerns the account of its beneficiary. -/
theorem account_settle (hnum : s.Numbered) (hseq : o.claimSeq = s.count b)
    (hle : s.count b ≤ usizeMax) : (s.settle b o resolution now).account =
      Function.update s.account b ((s.account b).resolve o resolution) := by
  cases resolution with
  | executed =>
    rw [settle, account_bury hnum hseq hle]
    rfl
  | reverted =>
    have hsame := revertClaimed_tombstones s b o.amount
    have hcount := count_congr hsame b
    have hacc := account_revertClaimed s b o.amount
    rw [settle, account_bury (numbered_congr hsame hnum) (by omega) (by omega), hacc,
      Function.update_idem, Function.update_self, hcount]
    have htotal : (s.revertClaimed b o.amount).executedTotal b = s.executedTotal b := by
      rw [executedTotal, executedTotal, hsame]
    rw [htotal]
    rfl

theorem tombstone_settle (hseq : o.claimSeq ≤ u64Max) {c : PrincipalBytes} {n : Nat}
    (hn : n ≤ u64Max) : (s.settle b o resolution now).tombstone c n =
      if c = b ∧ n = o.claimSeq then some (o.tombstone resolution now) else s.tombstone c n := by
  cases resolution with
  | executed => exact tombstone_bury hseq hn
  | reverted =>
    rw [settle, tombstone_bury hseq hn, tombstone_congr (revertClaimed_tombstones _ _ _)]

/-- The insert-once rule drops nothing where no tombstone stands yet. -/
theorem resolve_eq_bury (resolution : ClaimResolution) (now : Nat) (unknown : Bool)
    (h : s.tombstone b o.claimSeq = none) :
    s.resolveMarkerWithTombstone b (o.marker unknown) resolution now =
      some (s.bury b o resolution now) := by
  have habsent : s.terminalClaimTombstones.contains (tombstoneKey b o.claimSeq) = false := by
    rw [Bool.eq_false_iff]
    exact not_contains_iff.2 h
  show some ((s.writeTombstone _ _).removeMarker b) = _
  rw [writeTombstone, habsent]
  rfl

end Bury

end VestingState

/-! ### Messages -/

section Messages
open VestingState
variable {s : VestingState} {now : Nat} {b caller : PrincipalBytes} {o : Operation}

/-- What a claim does before its transfer. -/
inductive ClaimEffect (now : Nat) (s : VestingState) (b : PrincipalBytes) : VestingOutcome → Prop where
  | refused {a : Answer} : ClaimEffect now s b (.reply s a)
  | trapped : ClaimEffect now s b .trap
  | opened {s' : VestingState} {sch : VestingSchedule} {o : Operation}
      (hsch : s.schedule b = some sch) (hfree : s.marker b = none)
      (hamount : o.amount = sch.claimableAt now) (hseq : o.claimSeq = s.count b)
      (hle : s.count b ≤ usizeMax)
      (hs : s'.account = Function.update s.account b {s.account b with
        schedule := some {sch with claimed := sch.claimed + o.amount}
        marker := some (o.marker false)})
      (htombs : s'.terminalClaimTombstones = s.terminalClaimTombstones)
      (hops : s'.operations = (b, o.claimSeq) :: s.operations) :
      ClaimEffect now s b (.call s' (o.task b) (.icrc1Transfer (o.transfer b)))

theorem countClaimed_ok {s' : VestingState} {sch : VestingSchedule} {n : Nat}
    (hsch : s.schedule b = some sch) (h : countClaimed s b n = .ok s') :
    s' = s.putSchedule b {sch with claimed := sch.claimed + n} := by
  have hlookup : s.schedules[principalKey b]? = some sch := hsch
  simp only [countClaimed, hlookup, checkedAdd128] at h
  by_cases hfits : sch.claimed + n ≤ u128Max
  · simp only [hfits, if_true] at h
    cases h
    rfl
  · simp only [hfits, if_false] at h
    cases h

/-- The transfer is sent with the schedule counted up and the marker left. -/
theorem openClaim_effect {sch : VestingSchedule} (hsch : s.schedule b = some sch)
    (hfree : s.marker b = none) : ClaimEffect now s b (openClaim now b (sch.claimableAt now)
      (s.putSchedule b {sch with claimed := sch.claimed + sch.claimableAt now})) := by
  unfold openClaim
  cases hcount : (s.putSchedule b _).nextClaimSeq b with
  | none => exact .trapped
  | some claimSeq =>
    obtain ⟨hseq, hle⟩ := nextClaimSeq_eq.1 hcount
    cases htoken : (s.putSchedule b _).tokenCanister with
    | none => exact .trapped
    | some token =>
      refine .opened (o := ⟨claimSeq, sch.claimableAt now, now⟩) hsch hfree rfl hseq hle ?_ rfl rfl
      have hput := account_putSchedule s b {sch with claimed := sch.claimed + sch.claimableAt now}
      have hmark := account_putMarker
        (s.putSchedule b {sch with claimed := sch.claimed + sch.claimableAt now}) b
        (Operation.marker ⟨claimSeq, sch.claimableAt now, now⟩ false)
      rw [hput, Function.update_idem, Function.update_self] at hmark
      exact hmark

theorem claim_effect (now : Nat) (b : PrincipalBytes) (s : VestingState) :
    ClaimEffect now s b (claim now b s) := by
  unfold claim
  by_cases hfree : s.markerBlocksClaim b = true
  · rw [if_pos hfree]
    exact .refused
  · rw [if_neg hfree]
    cases hsch : s.schedule b with
    | none =>
      have hlookup : s.schedules[principalKey b]? = none := hsch
      simp only [hlookup, Option.map_none, Option.getD_none, if_true]
      exact .refused
    | some sch =>
      have hlookup : s.schedules[principalKey b]? = some sch := hsch
      simp only [hlookup, Option.map_some, Option.getD_some]
      by_cases hzero : sch.claimableAt now = 0
      · rw [if_pos hzero]
        exact .refused
      · rw [if_neg hzero]
        cases hcounted : countClaimed s b (sch.claimableAt now) with
        | error e => exact .refused
        | ok s' =>
          rw [countClaimed_ok hsch hcounted]
          exact openClaim_effect hsch (not_contains_iff.1 hfree)

/-- What the answer to a claim's transfer, or a reconciliation, says of the operation. -/
def resolutionOf : LedgerReply → Option ClaimResolution
  | .transfer r => if (settledBlock r).isSome then some .executed else some .reverted
  | _ => none

/-- What a claim does with its answer. -/
theorem claimAnswered_effect (D : Deployment) (now : Nat) (b : PrincipalBytes) (r : LedgerReply)
    (hfree : s.tombstone b o.claimSeq = none) :
    ∃ a, claimAnswered D now (o.task b) r s = .reply
      (match resolutionOf r with
      | some resolution => s.settle b o resolution now
      | none => s.putMarker b (o.marker true)) a := by
  have hreverted : (s.revertClaimed b o.amount).tombstone b o.claimSeq = none := by
    rw [tombstone_congr (revertClaimed_tombstones _ _ _)]
    exact hfree
  have hexecuted : ∀ result, resolveClaim now (o.task b) .executed result s =
      .reply (s.settle b o .executed now) (.claim result) := fun result => by
    have := resolve_eq_bury .executed now false hfree
    simp only [resolveClaim, Operation.task, this]
    rfl
  have hback : ∀ result, resolveClaim now (o.task b) .reverted result
      (s.revertClaimed b o.amount) =
        .reply (s.settle b o .reverted now) (.claim result) := fun result => by
    have := resolve_eq_bury .reverted now false hreverted
    simp only [resolveClaim, Operation.task, this]
    rfl
  cases r with
  | fee n => exact ⟨_, rfl⟩
  | balance n => exact ⟨_, rfl⟩
  | rejected e => exact ⟨_, rfl⟩
  | transfer result =>
    cases result with
    | ok block => exact ⟨_, hexecuted _⟩
    | error e =>
      cases e with
      | duplicate block => exact ⟨_, hexecuted _⟩
      | _ => exact ⟨_, hback _⟩

/-- The resolution a decision asks for. -/
def ClaimDecision.resolution : ClaimDecision → ClaimResolution
  | .executed => .executed
  | .notExecuted => .reverted

/-- What a reconciliation does: nothing, or it resolves the stuck operation. -/
inductive ReconcileEffect (now : Nat) (s : VestingState) (b : PrincipalBytes)
    (decision : ClaimDecision) : VestingOutcome → Prop where
  | refused {a : Answer} : ReconcileEffect now s b decision (.reply s a)
  | stuck {m : TransferOutcomeMarker} (hm : s.marker b = some m) (hu : m.unknown = true) :
      ReconcileEffect now s b decision (reconcileStuck now b m decision s)

theorem reconcileClaim_effect (now : Nat) (caller b : PrincipalBytes) (decision : ClaimDecision)
    (s : VestingState) :
    ReconcileEffect now s b decision (reconcileClaim now caller b decision s) := by
  unfold reconcileClaim
  cases hcontroller : s.controller with
  | none => exact .refused
  | some controller =>
    simp only
    by_cases hcaller : caller ≠ controller
    · rw [if_pos hcaller]
      exact .refused
    · rw [if_neg hcaller]
      by_cases hschedule : ¬s.schedules.contains (principalKey b)
      · rw [if_pos hschedule]
        exact .refused
      · rw [if_neg hschedule]
        cases hm : s.transferOutcomeUnknown[principalKey b]? with
        | none => exact .refused
        | some m =>
          simp only
          by_cases hu : m.unknown = true
          · rw [if_pos hu]
            exact .stuck hm hu
          · rw [if_neg hu]
            exact .refused

theorem reconcileStuck_eq (decision : ClaimDecision) (hfree : s.tombstone b o.claimSeq = none) :
    reconcileStuck now b (o.marker true) decision s =
      .reply (s.settle b o decision.resolution now) (.reconcile (.ok ())) := by
  have hreverted : (s.revertClaimed b o.amount).tombstone b o.claimSeq = none := by
    rw [tombstone_congr (revertClaimed_tombstones _ _ _)]
    exact hfree
  cases decision with
  | executed =>
    have := resolve_eq_bury .executed now true hfree
    simp only [reconcileStuck, this]
    rfl
  | notExecuted =>
    have := resolve_eq_bury .reverted now true hreverted
    simp only [reconcileStuck, Operation.marker] at this ⊢
    rw [this]
    rfl

/-- What an upgrade does: every marker in flight is stuck. -/
theorem account_sweep (s : VestingState) (c : PrincipalBytes) :
    s.sweepInflightMarkersOnUpgrade.account c =
      {s.account c with marker := (s.marker c).map fun m => {m with unknown := true}} := by
  have hmarker : s.sweepInflightMarkersOnUpgrade.marker c =
      (s.marker c).map fun m => {m with unknown := true} := by
    show (s.transferOutcomeUnknown.map _)[principalKey c]? = _
    rw [Std.ExtTreeMap.getElem?_map]
    refine congrArg (Option.map · _) (funext fun m => ?_)
    by_cases hu : m.unknown = true
    · rw [if_pos hu, ← hu]
    · rw [if_neg hu]
  show (⟨_, s.sweepInflightMarkersOnUpgrade.marker c, _, _⟩ : Account) = _
  rw [hmarker]
  rfl

theorem postUpgrade_eq {D : Deployment} {s' : VestingState} (h : postUpgrade D none s = some s') :
    ∃ token controller, s' =
      {s with
        tokenCanister := some token
        controller := some controller}.sweepInflightMarkersOnUpgrade := by
  unfold postUpgrade at h
  obtain ⟨⟨token, controller⟩, -, h⟩ := Option.bind_eq_some_iff.1 h
  exact ⟨token, controller, (Option.some.inj h).symm⟩

theorem rebindController_eq {D : Deployment} {p : PrincipalBytes} {s' : VestingState}
    (h : rebindController D p s = some s') : ∃ token, s' = s.setCanisterRefs token p := by
  obtain ⟨refs, -, h⟩ := Option.bind_eq_some_iff.1 h
  by_cases hrefused : RebindRefused D refs.1 p
  · rw [if_pos hrefused] at h
    cases h
  · rw [if_neg hrefused] at h
    exact ⟨refs.1, (Option.some.inj h).symm⟩

end Messages

end StshProtocol.Vesting
