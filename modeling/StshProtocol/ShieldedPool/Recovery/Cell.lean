import StshProtocol.ShieldedPool.Recovery.Chunks

/-! The cursor's cell is never read as complete by mistake.

A consistent cursor is read back as it was stored. Whatever else the cell holds, what is read from it
is either a scan that has not begun or a consistent cursor whose bytes the cell begins with
(`fromBytes_cases`). And the cursors that the scan commits are consistent, from whichever cell it
began, as long as the maps it walks are left alone (`Scanned.tally`). -/
namespace StshProtocol.ShieldedPool.Recovery
open Foundation (Bytes.toBe Bytes.ofBe Bytes.take Bytes.take_eq_some Bytes.toBe_ofBe Bytes.length_toBe
  Bytes.ofBe_lt)

namespace RecoveryCursor

/-- The fields have the ranges of their types. -/
structure Typed (c : RecoveryCursor) : Prop where
  phase : c.phase < 2 ^ 8
  depositsTotal : c.depositsTotal ≤ u64Max
  spendsTotal : c.spendsTotal ≤ u64Max
  scanned : c.scanned ≤ u64Max
  expectedDeposits : c.expectedDeposits ≤ u64Max
  expectedSpends : c.expectedSpends ≤ u64Max
  removedVisits : c.removedVisits ≤ u64Max

/-- The declared bound of a stored cursor. -/
def maxSize : Nat := 128

variable {c : RecoveryCursor} {b : Bytes}

/-! ### Consistent cursors -/

theorem phase_le (h : c.decodesConsistently = true) : c.phase ≤ cursorPhaseComplete := by
  unfold decodesConsistently at h
  split at h
  · exact nomatch h
  · omega

/-- A consistent cursor that is complete has no work left. -/
theorem remaining_of_complete (h : c.decodesConsistently = true) (hc : c.isComplete = true) :
    c.remaining = 0 := by
  have hphase : c.phase = cursorPhaseComplete :=
    Nat.le_antisymm (phase_le h) (of_decide_eq_true hc)
  unfold decodesConsistently at h
  rw [if_neg (by omega)] at h
  by_contra hne
  rw [if_pos (by simp [hphase, hne])] at h
  exact nomatch h

theorem Typed.inRange (ht : c.Typed) (h : c.decodesConsistently = true) : c.InRange :=
  ⟨phase_le h, ht.depositsTotal, ht.spendsTotal, ht.scanned, ht.expectedDeposits, ht.expectedSpends,
    ht.removedVisits⟩

theorem InRange.typed (h : c.InRange) : c.Typed :=
  ⟨Nat.lt_of_le_of_lt h.phase (by decide), h.depositsTotal, h.spendsTotal, h.scanned,
    h.expectedDeposits, h.expectedSpends, h.removedVisits⟩

theorem length_encodeOption {n : Nat} {payload : Option Bytes} (h : ∀ b ∈ payload, b.length = n) :
    (encodeOption payload).length ≤ n + 1 := by
  cases payload with
  | none => exact Nat.le_add_left 1 n
  | some b =>
    exact Nat.le_of_eq (by rw [encodeOption, List.length_cons, h b rfl])

theorem length_toBytes (c : RecoveryCursor) : c.toBytes.length ≤ maxSize := by
  have hdeposit : (encodeOption (c.lastDeposit.map fun k => Bytes.toBe 32 k.toNat)).length ≤ 32 + 1 :=
    length_encodeOption (by cases c.lastDeposit <;> simp)
  have hspend : (encodeOption (c.lastSpend.map fun id => Bytes.toBe 8 id.toNat)).length ≤ 8 + 1 :=
    length_encodeOption (by cases c.lastSpend <;> simp)
  simp only [toBytes, List.length_append, List.length_cons, List.length_nil, Bytes.length_toBe]
  unfold maxSize
  omega

/-! ### Any bytes -/

theorem toBytes_byte {front : Bytes} (h : front.length = 1) : [UInt8.ofNat (Bytes.ofBe front)] = front :=
  Bytes.toBe_ofBe (w := 1) h

/-- What an option was read from is what it is written as. -/
theorem takeOption_eq_some {n : Nat} {rest : Bytes} {payload : Option Bytes}
    (h : takeOption n b = some (payload, rest)) :
    b = encodeOption payload ++ rest ∧ ∀ x ∈ payload, x.length = n := by
  unfold takeOption at h
  split at h
  · next rest' htag =>
    obtain ⟨rfl, rfl⟩ := Prod.mk.inj (Option.some.inj h)
    exact ⟨(Bytes.take_eq_some htag).1, nofun⟩
  · next rest' htag =>
    obtain ⟨⟨front, rest''⟩, htake, h⟩ := Option.map_eq_some_iff.1 h
    obtain ⟨rfl, rfl⟩ := Prod.mk.inj h
    obtain ⟨hrest, hlen⟩ := Bytes.take_eq_some htake
    refine ⟨?_, fun x hx => Option.some.inj hx ▸ hlen⟩
    rw [(Bytes.take_eq_some htag).1, hrest]
    rfl
  · exact nomatch h

theorem word_le {front : Bytes} (h : front.length = 8) : Bytes.ofBe front ≤ u64Max := by
  have hlt := Bytes.ofBe_lt front
  rw [h] at hlt
  exact Nat.le_of_lt_succ hlt

theorem encodeOption_key {o : Option Bytes} (h : ∀ x ∈ o, x.length = 32) :
    encodeOption ((o.map fun k => BitVec.ofNat 256 (Bytes.ofBe k)).map fun k => Bytes.toBe 32 k.toNat) =
      encodeOption o := by
  cases o with
  | none => rfl
  | some k =>
    have hlen := h k rfl
    have hlt : Bytes.ofBe k < 2 ^ 256 := Nat.lt_of_lt_of_le (hlen ▸ Bytes.ofBe_lt k) (by decide)
    simp only [Option.map_some, BitVec.toNat_ofNat, Nat.mod_eq_of_lt hlt, Bytes.toBe_ofBe hlen]

theorem encodeOption_spendId {o : Option Bytes} (h : ∀ x ∈ o, x.length = 8) :
    encodeOption ((o.map fun k => BitVec.ofNat 64 (Bytes.ofBe k)).map fun k => Bytes.toBe 8 k.toNat) =
      encodeOption o := by
  cases o with
  | none => rfl
  | some k =>
    have hlen := h k rfl
    have hlt : Bytes.ofBe k < 2 ^ 64 := Nat.lt_of_lt_of_le (hlen ▸ Bytes.ofBe_lt k) (by decide)
    simp only [Option.map_some, BitVec.toNat_ofNat, Nat.mod_eq_of_lt hlt, Bytes.toBe_ofBe hlen]

/-- What is decoded from some bytes is what they begin with. -/
theorem decode_eq_some (h : decode b = some c) : c.toBytes <+: b ∧ c.Typed := by
  simp only [decode, Option.bind_eq_bind, Option.bind_eq_some_iff, Prod.exists] at h
  obtain ⟨version, b₁, hversion, _, hguard, phase, b₂, hphase, deposit, b₃, hdeposit, spend, b₄, hspend,
    d, b₅, hd, sp, b₆, hsp, sc, b₇, hsc, ed, b₈, hed, es, b₉, hes, rv, rest, hrv, h⟩ := h
  have hversion' : version = [2] := by
    by_contra hne
    rw [guard, if_neg hne] at hguard
    cases hguard
  obtain ⟨rfl, -⟩ := Bytes.take_eq_some hversion
  obtain ⟨rfl, kphase⟩ := Bytes.take_eq_some hphase
  obtain ⟨rfl, kdeposit⟩ := takeOption_eq_some hdeposit
  obtain ⟨rfl, kspend⟩ := takeOption_eq_some hspend
  obtain ⟨rfl, kd⟩ := Bytes.take_eq_some hd
  obtain ⟨rfl, ksp⟩ := Bytes.take_eq_some hsp
  obtain ⟨rfl, ksc⟩ := Bytes.take_eq_some hsc
  obtain ⟨rfl, ked⟩ := Bytes.take_eq_some hed
  obtain ⟨rfl, kes⟩ := Bytes.take_eq_some hes
  obtain ⟨rfl, krv⟩ := Bytes.take_eq_some hrv
  obtain rfl := Option.some.inj h
  refine ⟨⟨rest, ?_⟩, ?_⟩
  · simp only [toBytes, encodeOption_key kdeposit, encodeOption_spendId kspend, Bytes.toBe_ofBe kd,
      Bytes.toBe_ofBe ksp, Bytes.toBe_ofBe ksc, Bytes.toBe_ofBe ked, Bytes.toBe_ofBe kes,
      Bytes.toBe_ofBe krv, List.append_assoc]
    rw [show [2, UInt8.ofNat (Bytes.ofBe phase)] = [2] ++ [UInt8.ofNat (Bytes.ofBe phase)] from rfl,
      toBytes_byte kphase, List.append_assoc, hversion']
  · have hbyte := Bytes.ofBe_lt phase
    rw [kphase] at hbyte
    exact ⟨hbyte, word_le kd, word_le ksp, word_le ksc, word_le ked, word_le kes, word_le krv⟩

/-- The cell reads as a scan that has not begun, or as a consistent cursor that it begins with. -/
theorem fromBytes_cases (b : Bytes) : fromBytes b = pendingMaximal ∨
    (fromBytes b).decodesConsistently = true ∧ (fromBytes b).toBytes <+: b := by
  unfold fromBytes
  split
  · exact .inl rfl
  · next c hdecode =>
    split
    · next hc => exact .inr ⟨hc, (decode_eq_some hdecode).1⟩
    · exact .inl rfl

end RecoveryCursor

/-! ### The cursors of a scan -/

/-- Nothing of what the scan walks is changed, nor its cell. -/
structure SameMaps (p q : Pool) : Prop where
  deposits : q.deposits.pending = p.deposits.pending
  spends : q.spends.pending = p.spends.pending
  cell : q.recovery.cursor = p.recovery.cursor

/-- The pools of a run from a scan's first commit on. The scan begins in `post_upgrade`, or from a
cell that reads as not begun, and meanwhile its maps are left alone. -/
inductive Scanned : Pool → Prop
  | upgrade {chunk : Nat} {p : StablePool} {q : Pool} :
      runFirstRecoveryChunk chunk p.toPool = .ok q → Scanned q
  | unread {chunk r : Nat} {d : Bool} {p : StablePool} {q : Pool} :
      recoveryCursor p.toPool = .pendingMaximal →
      advanceRecoveryCursorCtx chunk d p.toPool = .ok (q, r) → Scanned q
  | advance {chunk r : Nat} {d : Bool} {q q' : Pool} : Scanned q →
      advanceRecoveryCursorCtx chunk d q = .ok (q', r) → Scanned q'
  | meanwhile {q q' : Pool} : Scanned q → SameMaps q q' → Scanned q'

section
variable {chunk r turns : Nat} {d : Bool} {s s' t : ScanState} {p q : Pool} {c : RecoveryCursor}

/-- The counts are of the two maps only. -/
theorem Tally.of_maps (ht : Tally s) (hcur : s'.cur = s.cur)
    (hdeposits : s'.pool.deposits.pending = s.pool.deposits.pending)
    (hspends : s'.pool.spends.pending = s.pool.spends.pending) : Tally s' := by
  have hahead : aheadCount s' = aheadCount s := by
    unfold aheadCount depositsAhead spendsAhead
    rw [hcur, hdeposits, hspends]
  have hout : outstanding s' = outstanding s := by
    rw [outstanding, outstanding, hahead, hcur, hdeposits, hspends]
  exact ⟨hcur ▸ ht.fits, hcur ▸ ht.phase, by rw [hout, hcur]; exact ht.total, hcur ▸ ht.indexed⟩

/-- The cell holds a cursor whose counts are right. -/
def Counted (p : Pool) : Prop := ∃ c, p.recovery.cursor = RecoveryCursor.toBytes c ∧ Tally ⟨c, p⟩

/-- What a chunk commits, of a cursor whose counts are right. -/
theorem counted_of_loop (ht : Tally ⟨c, p⟩) (hloop : advanceLoop d turns ⟨c, p⟩ chunk = .ok t)
    (hfinish : finishIfComplete t = .ok q) : Counted (commitRecoveryCursor q t.cur) := by
  obtain ⟨n, hsteps, -⟩ := advanceLoop_steps ht.inRange.scanned ht.phase hloop
  have ht' := hsteps.tally ht
  obtain ⟨hbooks, -⟩ := finishIfComplete_books hfinish
  refine ⟨t.cur, rfl, ht'.of_maps rfl ?_ ?_⟩
  · show q.deposits.pending = _
    rw [hbooks]
  · show q.spends.pending = _
    rw [hbooks]

theorem Counted.cursor (h : Counted p) : Tally ⟨recoveryCursor p, p⟩ := by
  obtain ⟨c, hcell, ht⟩ := h
  have hread : recoveryCursor p = c := by
    rw [recoveryCursor, hcell]
    exact RecoveryCursor.fromBytes_toBytes ht.inRange ht.decodes
  rwa [hread]

/-- A chunk of a scan whose counts are right commits right ones. -/
theorem Counted.advance (h : Counted p) (hadvance : advanceRecoveryCursorCtx chunk d p = .ok (q, r)) :
    Counted q := by
  unfold advanceRecoveryCursorCtx at hadvance
  split at hadvance
  · cases hadvance
    exact h
  · rw [h.cursor.snapshotTotals] at hadvance
    obtain ⟨t, hloop, hadvance⟩ := Foundation.bind_ok hadvance
    obtain ⟨q', hfinish, hadvance⟩ := Foundation.bind_ok hadvance
    cases hadvance
    exact counted_of_loop h.cursor hloop hfinish

/-- A scan that has not begun takes the totals first. -/
theorem counted_of_unread {p : StablePool} (hread : recoveryCursor p.toPool = .pendingMaximal)
    (hadvance : advanceRecoveryCursorCtx chunk d p.toPool = .ok (q, r)) : Counted q := by
  unfold advanceRecoveryCursorCtx at hadvance
  rw [hread, if_neg (by decide)] at hadvance
  obtain ⟨t, hloop, hadvance⟩ := Foundation.bind_ok hadvance
  obtain ⟨q', hfinish, hadvance⟩ := Foundation.bind_ok hadvance
  cases hadvance
  exact counted_of_loop (startScan_tally p) hloop hfinish

/-- Every cursor of a scan counts right. -/
theorem Scanned.counted (h : Scanned q) : Counted q := by
  induction h with
  | @upgrade chunk p q h =>
    obtain ⟨⟨q', r⟩, hadvance, hq⟩ := Foundation.bind_ok h
    cases hq
    have hstart : Counted (commitRecoveryCursor p.toPool (firstCursor p.toPool)) :=
      ⟨_, rfl, (startScan_tally p).of_maps rfl rfl rfl⟩
    exact hstart.advance hadvance
  | unread hread h => exact counted_of_unread hread h
  | advance _ h ih => exact ih.advance h
  | meanwhile _ h ih =>
    obtain ⟨c, hcell, ht⟩ := ih
    exact ⟨c, h.cell.trans hcell, ht.of_maps rfl h.deposits h.spends⟩

end

/-- The stored cursor never reads as complete by mistake. -/
theorem cursor_not_mistaken :
    (∀ c : RecoveryCursor, c.Typed → c.decodesConsistently = true →
      RecoveryCursor.fromBytes c.toBytes = c ∧ c.toBytes.length ≤ RecoveryCursor.maxSize) ∧
    (∀ q, Scanned q → ∃ c : RecoveryCursor, q.recovery.cursor = c.toBytes ∧ c.Typed ∧
      c.decodesConsistently = true) ∧
    ∀ b, (RecoveryCursor.fromBytes b = .pendingMaximal ∨
        (RecoveryCursor.fromBytes b).decodesConsistently = true ∧
          (RecoveryCursor.fromBytes b).toBytes <+: b) ∧
      ((RecoveryCursor.fromBytes b).isComplete = true →
        (RecoveryCursor.fromBytes b).toBytes <+: b ∧ (RecoveryCursor.fromBytes b).remaining = 0) := by
  refine ⟨fun c ht hc => ⟨RecoveryCursor.fromBytes_toBytes (ht.inRange hc) hc, c.length_toBytes⟩,
    fun q h => ?_, fun b => ⟨RecoveryCursor.fromBytes_cases b, fun hcomplete => ?_⟩⟩
  · obtain ⟨c, hcell, ht⟩ := h.counted
    exact ⟨c, hcell, ht.inRange.typed, ht.decodes⟩
  · rcases RecoveryCursor.fromBytes_cases b with hpending | ⟨hc, hbegins⟩
    · rw [hpending] at hcomplete
      exact absurd hcomplete (by decide)
    · exact ⟨hbegins, RecoveryCursor.remaining_of_complete hc hcomplete⟩

/-- A pool with no records, whose cell was never written. -/
def blankPool : StablePool where
  deposits := ⟨∅, ∅, ∅, ∅, ∅⟩
  spends := ⟨∅, ∅, ∅, ∅, ∅, ∅⟩
  lease := ⟨1, none⟩
  roots := ⟨∅, none⟩
  recovery := ⟨[], 0, [], none⟩
  fits := by decide

/-- The chunk that finds the cell unwritten commits a cursor that reads back, as the complete cursor
does. -/
theorem cursor_not_mistaken_blank :
    (∃ q r c, advanceRecoveryCursorCtx upgradeScanChunk false blankPool.toPool = .ok (q, r) ∧
      q.recovery.cursor = RecoveryCursor.toBytes c ∧ c.Typed ∧ c.decodesConsistently = true) ∧
    RecoveryCursor.fromBytes RecoveryCursor.complete.toBytes = .complete := by
  have hok : ∃ x, advanceRecoveryCursorCtx upgradeScanChunk false blankPool.toPool = .ok x := by
    have hc : (advanceRecoveryCursorCtx upgradeScanChunk false blankPool.toPool).isOk = true := by
      decide +kernel
    cases h : advanceRecoveryCursorCtx upgradeScanChunk false blankPool.toPool with
    | ok x => exact ⟨x, rfl⟩
    | error e =>
      rw [h] at hc
      exact nomatch hc
  obtain ⟨⟨q, r⟩, hadvance⟩ := hok
  obtain ⟨c, hcell, ht, hc⟩ := cursor_not_mistaken.2.1 q (.unread (by decide +kernel) hadvance)
  refine ⟨⟨q, r, c, hadvance, hcell, ht, hc⟩, (cursor_not_mistaken.1 _ ?_ (by decide)).1⟩
  exact ⟨by decide, by decide, by decide, by decide, by decide, by decide, by decide⟩

end StshProtocol.ShieldedPool.Recovery
