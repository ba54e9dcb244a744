import StshProtocol.SmokeAlarm.Page
import StshProtocol.SmokeAlarm.Runs
import StshProtocol.Foundation.Except
import Mathlib.Data.Fintype.Basic

/-! The encoder and the page's parser.

Whatever the monitor shows is parsed back field by field (`parse_canonicalBytes`), since every
field of a snapshot it can hold lies in its width (`reachable_ranged`). The other way round, the
bytes a parse accepts are the encoding of its value but for one bit: the presence of stray funds,
which the parser does not read (`canonicalBytes_parsed_iff`). -/
namespace StshProtocol.SmokeAlarm
open Foundation Foundation.Bytes ShieldedPool Page

variable {bs : Bytes} {s : SolvencySnapshot} {p : ParsedSnapshot} {now : Nat}

/-! ### Fields in their places -/

theorem slice_of_drop {a b : Bytes} {n k : Nat} (h : bs.drop n = a ++ b) (hk : a.length = k) :
    slice bs n k = a ∧ bs.drop (n + k) = b := by
  subst hk
  refine ⟨?_, ?_⟩
  · rw [slice, h, List.take_left]
  · rw [← List.drop_drop, h, List.drop_left]

theorem byteAt_of_drop {b : UInt8} {rest : Bytes} {n : Nat} (h : bs.drop n = b :: rest) :
    byteAt bs n = b ∧ bs.drop (n + 1) = rest := by
  refine ⟨?_, ?_⟩
  · have hget : bs[n]? = some b := by
      rw [← Nat.add_zero n, ← List.getElem?_drop, h]
      rfl
    rw [byteAt, hget]
    rfl
  · rw [← List.drop_drop, h]
    rfl

theorem drop_eq_slice (bs : Bytes) (n k : Nat) : bs.drop n = slice bs n k ++ bs.drop (n + k) := by
  rw [slice, ← List.drop_drop, List.take_append_drop]

theorem drop_eq_byteAt {n : Nat} (hn : n < bs.length) : bs.drop n = byteAt bs n :: bs.drop (n + 1) := by
  rw [byteAt, List.getElem?_eq_getElem hn]
  exact List.drop_eq_getElem_cons hn

theorem length_slice {n k : Nat} (h : n + k ≤ bs.length) : (slice bs n k).length = k := by
  rw [slice, List.length_take, List.length_drop]
  omega

/-- A field that is read is written back. -/
theorem toBe_beUint {n k : Nat} (h : n + k ≤ bs.length) : toBe k (beUint bs n k) = slice bs n k :=
  toBe_ofBe (length_slice h)

theorem beUint_of_slice {n k m : Nat} (h : slice bs n k = toBe k m) (hm : m < 256 ^ k) :
    beUint bs n k = m := by
  rw [beUint, h, ofBe_toBe hm]

/-! ### The signed field -/

theorem beInt_of_slice {n : Nat} {d : Int} (h : slice bs n 16 = i128ToBeBytes d) (hd : IsI128 d) :
    beInt bs n 16 = d := by
  have hread : beUint bs n 16 = (d % 2 ^ 128).toNat := by
    refine beUint_of_slice h ?_
    show (d % 2 ^ 128).toNat < 256 ^ 16
    omega
  obtain ⟨hlow, hhigh⟩ := hd
  rw [beInt, hread]
  show (if 2 ^ 127 ≤ (d % 2 ^ 128).toNat then (((d % 2 ^ 128).toNat : Nat) : Int) - 2 ^ 128
    else (((d % 2 ^ 128).toNat : Nat) : Int)) = d
  split <;> omega

theorem i128ToBeBytes_beInt {n : Nat} (h : n + 16 ≤ bs.length) :
    i128ToBeBytes (beInt bs n 16) = slice bs n 16 := by
  have hlt : beUint bs n 16 < 256 ^ 16 := by
    have := ofBe_lt (slice bs n 16)
    rwa [length_slice h] at this
  have hmod : (beInt bs n 16 % 2 ^ 128).toNat = beUint bs n 16 := by
    show ((if 2 ^ 127 ≤ beUint bs n 16 then ((beUint bs n 16 : Nat) : Int) - 2 ^ 128
      else ((beUint bs n 16 : Nat) : Int)) % 2 ^ 128).toNat = beUint bs n 16
    split <;> omega
  rw [i128ToBeBytes, hmod, toBe_beUint h]

/-! ### The flag byte and the status bytes -/

theorem forall_byte {P : UInt8 → Prop} (h : ∀ n : Fin 256, P (UInt8.ofNat n)) (b : UInt8) : P b := by
  have := h ⟨b.toNat, b.toNat_lt⟩
  rwa [UInt8.ofNat_toNat] at this

theorem hasBit_flagByte (a b c d e : Bool) :
    hasBit (flagByte a b c d e) 0b01 = a ∧ hasBit (flagByte a b c d e) 0b10 = b ∧
      hasBit (flagByte a b c d e) 0b0100 = c ∧ hasBit (flagByte a b c d e) 0b1000 = d ∧
      hasBit (flagByte a b c d e) 0b10000 = e ∧ flagByte a b c d e &&& 0b11100000 = 0 := by
  revert a b c d e
  decide

/-- A flag byte within a schema's mask is made of the bits the parser reads, and of the one that
it does not. -/
theorem flagByte_hasBit {f : UInt8} {version : Nat} (h : f &&& reservedMask version = 0) :
    flagByte (hasBit f 0b01) (hasBit f 0b10) (hasBit f 0b0100) (hasBit f 0b1000)
      (if version = schemaVersionV3 then hasBit f 0b10000 else false) = f := by
  unfold reservedMask at h
  by_cases hv : version = schemaVersionV3
  · rw [if_pos hv] at h ⊢
    revert h
    exact forall_byte (P := fun f => f &&& 0b11100000 = 0 → flagByte (hasBit f 0b01) (hasBit f 0b10)
      (hasBit f 0b0100) (hasBit f 0b1000) (hasBit f 0b10000) = f) (by decide +kernel) f
  · rw [if_neg hv] at h ⊢
    revert h
    exact forall_byte (P := fun f => f &&& 0b11110000 = 0 → flagByte (hasBit f 0b01) (hasBit f 0b10)
      (hasBit f 0b0100) (hasBit f 0b1000) false = f) (by decide +kernel) f

theorem snapshotStatus_asU8 (status : SnapshotStatus) : snapshotStatus status.asU8 = .ok status := by
  cases status <;> rfl

theorem readStatus_asU8 (status : SourceReadStatus) : readStatus status.asU8 = .ok status := by
  cases status <;> rfl

theorem asU8_of_snapshotStatus {b : UInt8} {status : SnapshotStatus}
    (h : snapshotStatus b = .ok status) : status.asU8 = b := by
  unfold snapshotStatus at h
  repeat' split at h
  all_goals first | (cases h; exact Eq.symm ‹b = _›) | cases h

theorem asU8_of_readStatus {b : UInt8} {status : SourceReadStatus}
    (h : readStatus b = .ok status) : status.asU8 = b := by
  unfold readStatus at h
  repeat' split at h
  all_goals first | (cases h; exact Eq.symm ‹b = _›) | cases h

/-! ### What is encoded is parsed back -/

/-- Where the encoder puts each field. -/
structure Layout (bs : Bytes) (s : SolvencySnapshot) : Prop where
  length : bs.length = pageCanonicalLen
  tag : slice bs 0 19 = domainTag
  schema : slice bs 19 4 = toBe 4 s.schemaVersion
  status : byteAt bs 23 = s.status.asU8
  flags : byteAt bs 24 = s.flags
  fixedMaxSupply : slice bs 25 16 = toBe 16 s.fixedMaxSupplyE8s
  sumAllBalances : slice bs 41 16 = toBe 16 s.sumAllBalancesE8s
  poolBalance : slice bs 57 16 = toBe 16 s.poolBalanceE8s
  refreshedAt : slice bs 73 8 = toBe 8 s.refreshedAtNs
  maxStaleness : slice bs 81 8 = toBe 8 s.maxStalenessNs
  poolStatus : byteAt bs 89 = s.poolAttestationSourceStatus.asU8
  treasuryStatus : byteAt bs 90 = s.treasuryReadStatus.asU8
  delta : slice bs 91 16 = i128ToBeBytes s.poolPublicDeltaE8s
  attestedAt : slice bs 107 8 = toBe 8 s.poolAttestedAtNs
  stray : slice bs 115 16 = toBe 16 s.treasuryStrayFundsE8s

theorem canonicalBytes_layout (s : SolvencySnapshot) : Layout s.canonicalBytes s := by
  generalize hbs : s.canonicalBytes = bs
  have h0 : bs.drop 0 = s.canonicalBytes := hbs.symm
  obtain ⟨htag, h19⟩ := slice_of_drop h0 (k := 19) rfl
  obtain ⟨hschema, h23⟩ := slice_of_drop h19 (length_toBe _ _)
  obtain ⟨hstatus, h24⟩ := byteAt_of_drop h23
  obtain ⟨hflags, h25⟩ := byteAt_of_drop h24
  obtain ⟨hfixed, h41⟩ := slice_of_drop h25 (length_toBe _ _)
  obtain ⟨hsum, h57⟩ := slice_of_drop h41 (length_toBe _ _)
  obtain ⟨hpool, h73⟩ := slice_of_drop h57 (length_toBe _ _)
  obtain ⟨hrefreshed, h81⟩ := slice_of_drop h73 (length_toBe _ _)
  obtain ⟨hstaleness, h89⟩ := slice_of_drop h81 (length_toBe _ _)
  obtain ⟨hpoolStatus, h90⟩ := byteAt_of_drop h89
  obtain ⟨htreasury, h91⟩ := byteAt_of_drop h90
  obtain ⟨hdelta, h107⟩ := slice_of_drop h91 (length_toBe _ _)
  obtain ⟨hattested, h115⟩ := slice_of_drop h107 (length_toBe _ _)
  rw [← List.append_nil (toBe 16 s.treasuryStrayFundsE8s)] at h115
  obtain ⟨hstray, -⟩ := slice_of_drop h115 (length_toBe _ _)
  exact ⟨hbs ▸ s.length_canonicalBytes, htag, hschema, hstatus, hflags, hfixed, hsum, hpool,
    hrefreshed, hstaleness, hpoolStatus, htreasury, hdelta, hattested, hstray⟩

/-- Every field of the snapshot lies in its width, and the delta is clamped. -/
structure Ranged (now : Nat) (s : SolvencySnapshot) : Prop where
  fixedMaxSupply : s.fixedMaxSupplyE8s ≤ u128Max
  sumAllBalances : s.sumAllBalancesE8s ≤ u128Max
  poolBalance : s.poolBalanceE8s ≤ u128Max
  refreshedAt : s.refreshedAtNs ≤ now
  maxStaleness : s.maxStalenessNs ≤ u64Max
  delta : IsI128 s.poolPublicDeltaE8s
  clamped : s.poolPublicDeltaE8s ≤ 0
  attestedAt : s.poolAttestedAtNs ≤ u64Max
  stray : s.treasuryStrayFundsE8s ≤ u128Max
  schema : s.schemaVersion = schemaVersion

/-- The fields of a snapshot as the page has them. -/
def parsedOf (s : SolvencySnapshot) : ParsedSnapshot where
  schemaVersion := s.schemaVersion
  status := s.status
  supplyInvariantHolds := s.supplyInvariantHolds
  healthy := s.healthy
  fixedMaxSupplyE8s := s.fixedMaxSupplyE8s
  sumAllBalancesE8s := s.sumAllBalancesE8s
  poolBalanceE8s := s.poolBalanceE8s
  refreshedAtNs := s.refreshedAtNs
  maxStalenessNs := s.maxStalenessNs
  poolAttestationSourceStatus := s.poolAttestationSourceStatus
  poolDeltaHealthy := s.poolDeltaHealthy
  poolPublicDeltaE8s := s.poolPublicDeltaE8s
  poolAttestedAtNs := s.poolAttestedAtNs
  treasuryReadStatus := s.treasuryReadStatus
  treasuryStrayFundsE8s := s.treasuryStrayFundsE8s
  supplyInvariantUnavailable := s.supplyInvariantUnavailable

/-- The snapshot with the fields the page has. -/
def snapshotOf (p : ParsedSnapshot) : SolvencySnapshot where
  supplyInvariantHolds := p.supplyInvariantHolds
  fixedMaxSupplyE8s := p.fixedMaxSupplyE8s
  sumAllBalancesE8s := p.sumAllBalancesE8s
  poolBalanceE8s := p.poolBalanceE8s
  poolAttestationSourceStatus := p.poolAttestationSourceStatus
  poolDeltaHealthy := p.poolDeltaHealthy
  poolPublicDeltaE8s := p.poolPublicDeltaE8s
  poolAttestedAtNs := p.poolAttestedAtNs
  treasuryReadStatus := p.treasuryReadStatus
  treasuryStrayFundsE8s := p.treasuryStrayFundsE8s
  supplyInvariantUnavailable := p.supplyInvariantUnavailable
  refreshedAtNs := p.refreshedAtNs
  maxStalenessNs := p.maxStalenessNs
  status := p.status
  healthy := p.healthy
  schemaVersion := p.schemaVersion

/-- What the monitor encodes the page parses, to the same fields. -/
theorem parse_canonicalBytes (h : Ranged now s) (hnow : now ≤ u64Max) :
    parseCanonicalSnapshot s.canonicalBytes = .ok (parsedOf s) := by
  have hl := canonicalBytes_layout s
  generalize s.canonicalBytes = bs at hl
  have wide128 : ∀ {m : Nat}, m ≤ u128Max → m < 256 ^ 16 := fun hm => Nat.lt_succ_of_le hm
  have wide64 : ∀ {m : Nat}, m ≤ u64Max → m < 256 ^ 8 := fun hm => Nat.lt_succ_of_le hm
  have hschema : beUint bs 19 4 = schemaVersionV3 :=
    beUint_of_slice (hl.schema.trans (congrArg _ h.schema)) (by decide)
  obtain ⟨hholds, hhealthy, hbacked, -, hunavailable, hmask⟩ := hasBit_flagByte s.supplyInvariantHolds
    s.healthy s.poolDeltaHealthy (decide (0 < s.treasuryStrayFundsE8s)) s.supplyInvariantUnavailable
  have hlength : checkLength bs = .ok () := if_pos hl.length
  have htag : checkTag bs = .ok () := by
    rw [checkTag, hl.tag]
    rfl
  have hreserved : checkReserved schemaVersionV3 s.flags = .ok () := if_pos hmask
  have hdelta : beInt bs 91 16 = s.poolPublicDeltaE8s := beInt_of_slice hl.delta h.delta
  have hclamped : checkDelta s.poolPublicDeltaE8s = .ok () := if_neg (Int.not_lt.2 h.clamped)
  have hversion : schemaVersionV3 = s.schemaVersion := h.schema.symm
  unfold parseCanonicalSnapshot
  simp only [hlength, htag, hschema, hl.flags, hl.status, hl.poolStatus, hl.treasuryStatus, hdelta,
    hreserved, hclamped, snapshotStatus_asU8, readStatus_asU8, bind, Except.bind, pure, Except.pure]
  show Except.ok _ = _
  rw [beUint_of_slice hl.fixedMaxSupply (wide128 h.fixedMaxSupply),
    beUint_of_slice hl.sumAllBalances (wide128 h.sumAllBalances),
    beUint_of_slice hl.poolBalance (wide128 h.poolBalance),
    beUint_of_slice hl.refreshedAt (wide64 (h.refreshedAt.trans hnow)),
    beUint_of_slice hl.maxStaleness (wide64 h.maxStaleness),
    beUint_of_slice hl.attestedAt (wide64 h.attestedAt), beUint_of_slice hl.stray (wide128 h.stray),
    if_pos trivial, SolvencySnapshot.flags, hholds, hhealthy, hbacked, hunavailable, hversion]
  rfl

/-! ### What is parsed is encoded back, but for one bit -/

/-- The bit for stray funds says what the amount says. -/
def StrayBitAgrees (bs : Bytes) : Prop := hasBit (byteAt bs 24) 0b1000 = decide (0 < beUint bs 115 16)

instance (bs : Bytes) : Decidable (StrayBitAgrees bs) := inferInstanceAs (Decidable (_ = _))

/-- What an accepted parse has checked and read. -/
theorem parse_ok (h : parseCanonicalSnapshot bs = .ok p) :
    bs.length = pageCanonicalLen ∧ slice bs 0 19 = domainTag ∧
      beUint bs 19 4 ∈ acceptedSchemaVersions ∧
      byteAt bs 24 &&& reservedMask (beUint bs 19 4) = 0 ∧
      beInt bs 91 16 ≤ 0 ∧ p.status.asU8 = byteAt bs 23 ∧
      p.poolAttestationSourceStatus.asU8 = byteAt bs 89 ∧ p.treasuryReadStatus.asU8 = byteAt bs 90 ∧
      p = {schemaVersion := beUint bs 19 4
           status := p.status
           supplyInvariantHolds := hasBit (byteAt bs 24) 0b01
           healthy := hasBit (byteAt bs 24) 0b10
           fixedMaxSupplyE8s := beUint bs 25 16
           sumAllBalancesE8s := beUint bs 41 16
           poolBalanceE8s := beUint bs 57 16
           refreshedAtNs := beUint bs 73 8
           maxStalenessNs := beUint bs 81 8
           poolAttestationSourceStatus := p.poolAttestationSourceStatus
           poolDeltaHealthy := hasBit (byteAt bs 24) 0b0100
           poolPublicDeltaE8s := beInt bs 91 16
           poolAttestedAtNs := beUint bs 107 8
           treasuryReadStatus := p.treasuryReadStatus
           treasuryStrayFundsE8s := beUint bs 115 16
           supplyInvariantUnavailable :=
             if beUint bs 19 4 = schemaVersionV3 then hasBit (byteAt bs 24) 0b10000 else false} := by
  obtain ⟨_, hlength, h⟩ := bind_ok h
  obtain ⟨_, htag, h⟩ := bind_ok h
  obtain ⟨_, hschema, h⟩ := bind_ok h
  obtain ⟨_, hreserved, h⟩ := bind_ok h
  obtain ⟨status, hstatus, h⟩ := bind_ok h
  obtain ⟨_, hdelta, h⟩ := bind_ok h
  obtain ⟨poolStatus, hpool, h⟩ := bind_ok h
  obtain ⟨treasuryStatus, htreasury, h⟩ := bind_ok h
  cases Except.ok.inj h
  have hlength : bs.length = pageCanonicalLen := by
    by_contra hne
    rw [checkLength, if_neg hne] at hlength
    exact nomatch hlength
  refine ⟨hlength, ?_, ?_, ?_, ?_, asU8_of_snapshotStatus hstatus, asU8_of_readStatus hpool,
    asU8_of_readStatus htreasury, rfl⟩
  · have htext : Utf8.decode (slice bs 0 19) = domainTagText := by
      by_contra hne
      rw [checkTag, if_neg hne] at htag
      exact nomatch htag
    have hslice : (slice bs 0 19).length = 19 := by
      rw [length_slice]
      rw [hlength]
      decide
    have hbytes := Utf8.decode_plain (by decide) hslice htext
    exact List.map_injective_iff.2 (fun _ _ => UInt8.toNat_inj.1) hbytes
  · by_contra hne
    rw [checkSchema, if_neg hne] at hschema
    exact nomatch hschema
  · by_contra hne
    rw [checkReserved, if_neg hne] at hreserved
    exact nomatch hreserved
  · by_contra hpos
    rw [checkDelta, if_pos (Int.not_le.1 hpos)] at hdelta
    exact nomatch hdelta

/-- Accepted bytes are the encoding of their value exactly if the bit for stray funds agrees with
the amount. -/
theorem canonicalBytes_parsed_iff (h : parseCanonicalSnapshot bs = .ok p) :
    (snapshotOf p).canonicalBytes = bs ↔ StrayBitAgrees bs := by
  obtain ⟨hlength, htag, -, hmask, -, hstatus, hpool, htreasury, hp⟩ := parse_ok h
  have hle : bs.length = 131 := hlength
  constructor
  · intro hbs
    have hl := canonicalBytes_layout (snapshotOf p)
    rw [hbs] at hl
    have hstray : p.treasuryStrayFundsE8s = beUint bs 115 16 := congrArg (·.treasuryStrayFundsE8s) hp
    rw [StrayBitAgrees, ← hstray, hl.flags]
    exact (hasBit_flagByte _ _ _ _ _).2.2.2.1
  · intro hagrees
    have hflags : (snapshotOf p).flags = byteAt bs 24 := by
      have := flagByte_hasBit hmask
      rw [hagrees] at this
      rw [← this, hp]
      rfl
    have hfront : bs = slice bs 0 19 ++ bs.drop 19 := drop_eq_slice bs 0 19
    have hlast : bs.drop 115 = slice bs 115 16 := by
      rw [drop_eq_slice bs 115 16, List.drop_eq_nil_of_le (by omega), List.append_nil]
    rw [hfront, drop_eq_slice bs 19 4, drop_eq_byteAt (n := 23) (by omega),
      drop_eq_byteAt (n := 24) (by omega), drop_eq_slice bs 25 16, drop_eq_slice bs 41 16,
      drop_eq_slice bs 57 16, drop_eq_slice bs 73 8, drop_eq_slice bs 81 8,
      drop_eq_byteAt (n := 89) (by omega), drop_eq_byteAt (n := 90) (by omega),
      drop_eq_slice bs 91 16, drop_eq_slice bs 107 8, hlast, htag, ← hstatus, ← hpool, ← htreasury,
      ← hflags, ← toBe_beUint (n := 19) (by omega), ← toBe_beUint (n := 25) (by omega),
      ← toBe_beUint (n := 41) (by omega), ← toBe_beUint (n := 57) (by omega),
      ← toBe_beUint (n := 73) (by omega), ← toBe_beUint (n := 81) (by omega),
      ← toBe_beUint (n := 107) (by omega), ← toBe_beUint (n := 115) (by omega),
      ← i128ToBeBytes_beInt (n := 91) (by omega), hp]
    rfl

/-! ### What the monitor can show -/

/-- The attestations the pool answers with. -/
def Published (c : CertifiedSolvencyAttestation) : Prop :=
  ∃ words certifiedAt, c = getSolvencyAttestation words certifiedAt

theorem Ranged.mono {n : Nat} (h : Ranged now s) (hn : now ≤ n) : Ranged n s :=
  {h with refreshedAt := h.refreshedAt.trans hn}

/-- What an attempt fixed and what it has read so far lies in range. -/
structure AttemptRanged (now : Nat) (a : Attempt) (supply : Option SupplyInvariantReport)
    (attestation : Option CertifiedSolvencyAttestationMirror) : Prop where
  previous : Ranged now a.previous
  started : a.owner.sampleStartedAtNs ≤ now
  maxStaleness : a.cfg.maxStalenessNs ≤ u64Max
  supply : ∀ report, supply = some report →
    report.fixedMaxSupply ≤ u128Max ∧ report.sumAllBalances ≤ u128Max
  attestation : ∀ c, attestation = some c → IsI128 c.attestation.publicDeltaE8s ∧
    c.attestation.publicDeltaE8s ≤ 0 ∧ c.attestation.attestedAtNs ≤ u64Max

theorem AttemptRanged.mono {n : Nat} {a : Attempt} {supply : Option SupplyInvariantReport}
    {attestation : Option CertifiedSolvencyAttestationMirror}
    (h : AttemptRanged now a supply attestation) (hn : now ≤ n) :
    AttemptRanged n a supply attestation :=
  {h with previous := h.previous.mono hn, started := h.started.trans hn}

/-- The same of an attempt at whichever await it is. -/
def TaskRanged (now : Nat) : RefreshTask → Prop
  | .supply a => AttemptRanged now a none none
  | .balance a supply => AttemptRanged now a supply none
  | .attestation a supply _ => AttemptRanged now a supply none
  | .treasury a supply _ attestation => AttemptRanged now a supply attestation

theorem TaskRanged.mono {n : Nat} {k : RefreshTask} (h : TaskRanged now k) (hn : now ≤ n) :
    TaskRanged n k := by
  cases k <;> exact AttemptRanged.mono h hn

theorem foldAttestation_ranged (completedAtNs : Nat) (cfg : MonitorInit)
    {attestation : Option CertifiedSolvencyAttestationMirror}
    (h : ∀ c, attestation = some c → IsI128 c.attestation.publicDeltaE8s ∧
      c.attestation.publicDeltaE8s ≤ 0 ∧ c.attestation.attestedAtNs ≤ u64Max) :
    IsI128 (foldAttestation completedAtNs cfg attestation).publicDeltaE8s ∧
      (foldAttestation completedAtNs cfg attestation).publicDeltaE8s ≤ 0 ∧
      (foldAttestation completedAtNs cfg attestation).attestedAtNs ≤ u64Max := by
  have hzero : IsI128 0 ∧ (0 : Int) ≤ 0 ∧ 0 ≤ u64Max := by decide
  cases attestation with
  | none => exact hzero
  | some c =>
    obtain ⟨hdelta, hclamped, htime⟩ := h c rfl
    unfold foldAttestation
    by_cases hschema : c.attestation.schemaVersion ≠ poolAttestationSchema
    · simp only [if_pos hschema]
      exact hzero
    · simp only [if_neg hschema]
      by_cases hbytes : solvencyAttestationBytesMismatch c = true
      · rw [if_pos hbytes]
        exact ⟨hzero.1, hzero.2.1, htime⟩
      · rw [if_neg hbytes]
        by_cases hstale : AttestationIsStale completedAtNs c.attestation.attestedAtNs cfg.maxStalenessNs
        · rw [if_pos hstale]
          exact ⟨hdelta, hclamped, htime⟩
        · rw [if_neg hstale]
          exact ⟨hdelta, hclamped, htime⟩

theorem foldTreasury_le (treasury : Option Nat) : (foldTreasury treasury).2 ≤ u128Max := by
  cases treasury with
  | none => exact Nat.zero_le _
  | some n =>
    unfold foldTreasury natToU128
    by_cases hn : n ≤ u128Max
    · simp only [if_pos hn]
      exact hn
    · simp only [if_neg hn]
      exact Nat.zero_le _

theorem failureSnapshot_ranged {previous : SolvencySnapshot} {cfg : MonitorInit} {started : Nat}
    (h : Ranged now previous) (hstarted : started ≤ now) (hcfg : cfg.maxStalenessNs ≤ u64Max)
    (status : SnapshotStatus) : Ranged now (failureSnapshot previous cfg started status) :=
  ⟨h.fixedMaxSupply, h.sumAllBalances, h.poolBalance, hstarted, hcfg, h.delta, h.clamped,
    h.attestedAt, h.stray, rfl⟩

/-- Whatever came back, the snapshot an attempt commits can be encoded. -/
theorem refreshSnapshot_ranged {a : Attempt} {supply : Option SupplyInvariantReport}
    {attestation : Option CertifiedSolvencyAttestationMirror} (completedAtNs : Nat)
    (balance treasury : Option Nat) (h : AttemptRanged now a supply attestation) :
    Ranged now (refreshSnapshot completedAtNs a supply balance attestation treasury) := by
  have hfailure := failureSnapshot_ranged h.previous h.started h.maxStaleness
  unfold refreshSnapshot enforceAttemptAge
  by_cases hlong : AttemptIsOverlong a.owner.sampleStartedAtNs completedAtNs a.cfg.maxStalenessNs
  · rw [if_pos hlong]
    exact hfailure _
  rw [if_neg hlong]
  cases supply with
  | none => exact hfailure _
  | some report =>
    cases balance with
    | none => exact hfailure _
    | some n =>
      unfold candidateSnapshot natToU128
      by_cases hn : n ≤ u128Max
      · simp only [if_pos hn]
        obtain ⟨hfixed, hsum⟩ := h.supply report rfl
        obtain ⟨hdelta, hclamped, htime⟩ :=
          foldAttestation_ranged completedAtNs a.cfg h.attestation
        exact ⟨hfixed, hsum, hn, h.started, h.maxStaleness, hdelta, hclamped, htime,
          foldTreasury_le treasury, rfl⟩
      · simp only [if_neg hn]
        exact hfailure _

/-- The snapshot shown, the configuration and the suspended attempts are in range. -/
structure AllRanged (w : MonitorWorld) : Prop where
  snapshot : Ranged w.now w.state.snapshot
  maxStaleness : w.state.config.maxStalenessNs ≤ u64Max
  tasks : ∀ t k, w.tasks t = some k → TaskRanged w.now k

section Runs
variable {D : Deployment} {w w' : MonitorWorld} {e : Event Input MonitorReply}

theorem AllRanged.finish (h : AllRanged w) (t : Nat) : AllRanged (w.finish t) :=
  ⟨h.snapshot, h.maxStaleness, fun u k hk => h.tasks u k (World.of_tasks_finish hk).2⟩

/-- A message goes on to an await with reads in range. -/
theorem AllRanged.suspend (h : AllRanged w) {s : MonitorState} {k : RefreshTask}
    (hsnapshot : s.snapshot = w.state.snapshot) (hconfig : s.config = w.state.config)
    (hk : TaskRanged w.now k) : AllRanged (w.suspend s k ()) := by
  refine ⟨?_, ?_, fun u k' hk' => ?_⟩
  · show Ranged w.now s.snapshot
    rw [hsnapshot]
    exact h.snapshot
  · show s.config.maxStalenessNs ≤ u64Max
    rw [hconfig]
    exact h.maxStaleness
  · rcases World.of_tasks_suspend hk' with ⟨-, rfl⟩ | ⟨-, hold⟩
    · exact hk
    · exact h.tasks u k' hold

theorem asSupply_ranged {r : MonitorReply} (hr : r.InRange) (report : SupplyInvariantReport)
    (h : r.asSupply = some report) :
    report.fixedMaxSupply ≤ u128Max ∧ report.sumAllBalances ≤ u128Max := by
  cases r with
  | supply _ =>
    cases h
    exact hr
  | _ => cases h

theorem asAttestation_ranged {r : MonitorReply}
    (hr : r.InRange ∧ ∀ c, r = .attestation c → Published c) (c : CertifiedSolvencyAttestationMirror)
    (h : r.asAttestation = some c) : IsI128 c.attestation.publicDeltaE8s ∧
      c.attestation.publicDeltaE8s ≤ 0 ∧ c.attestation.attestedAtNs ≤ u64Max := by
  cases r with
  | attestation _ =>
    cases h
    obtain ⟨words, certifiedAt, rfl⟩ := hr.2 c rfl
    exact ⟨hr.1.1, (solvencyAttestationPayload_delta words certifiedAt).2, hr.1.2.1⟩
  | _ => cases h

/-- What is read at one await joins what was read before. -/
theorem resume_ranged {now : Nat} {k k' : RefreshTask} {r : MonitorReply} {s s' : MonitorState}
    {q : MonitorCall} (hk : TaskRanged now k) (hr : r.InRange ∧ ∀ c, r = .attestation c → Published c)
    (h : (canister D).resume now k r s = .call s' k' q) : s' = s ∧ TaskRanged now k' := by
  cases k with
  | supply a =>
    cases h
    exact ⟨rfl, {(hk : AttemptRanged _ _ _ _) with supply := asSupply_ranged hr.1}⟩
  | balance a supply =>
    cases h
    exact ⟨rfl, hk⟩
  | attestation a supply balance =>
    cases h
    exact ⟨rfl, {(hk : AttemptRanged _ _ _ _) with attestation := asAttestation_ranged hr}⟩
  | treasury a supply balance attestation => cases h

theorem installed_ranged (h : Installed D w) : AllRanged w := by
  obtain ⟨⟨cfg, hcfg, hinit⟩, htasks⟩ := h
  obtain ⟨-, hstate⟩ := init_ok hinit
  have hplaceholder : Ranged w.now (placeholder cfg w.now) :=
    ⟨Nat.zero_le _, Nat.zero_le _, Nat.zero_le _, Nat.le_refl _, hcfg,
      show IsI128 0 by decide, Int.le_refl _, Nat.zero_le _, Nat.zero_le _, rfl⟩
  refine ⟨?_, ?_, fun t k hk => (Option.some_ne_none _ (hk.symm.trans (congrFun htasks t))).elim⟩
  · rw [hstate]
    exact hplaceholder
  · rw [hstate]
    exact hcfg

theorem step_ranged (h : AllRanged w) (hstep : (canister D).Step (sources Published) w e w') :
    AllRanged w' := by
  cases hstep with
  | @call _ i hl =>
    have heffect := start_effect (D := D) w.now i w.state
    generalize (canister D).start w.now i w.state = outcome at heffect hl
    cases heffect with
    | refused =>
      cases hl.of_reply
      exact h
    | acquired _ =>
      obtain ⟨⟨⟩, -, rfl⟩ := hl.of_call
      exact h.suspend rfl rfl
        ⟨h.snapshot, Nat.le_refl _, h.maxStaleness, fun _ hr => (nomatch hr),
          fun _ hc => (nomatch hc)⟩
  | callTrap _ => exact h
  | @reply _ t k r hk hr hl =>
    have hranged := h.tasks t k hk
    have heffect := resume_effect (D := D) w.now k r w.state
    cases hout : (canister D).resume w.now k r w.state with
    | trap =>
      rw [hout] at hl
      exact (hl.not_trap).elim
    | call s' k' q =>
      obtain ⟨rfl, hk'⟩ := resume_ranged hranged hr hout
      rw [hout] at hl
      obtain ⟨⟨⟩, -, rfl⟩ := hl.of_call
      exact (h.finish t).suspend rfl rfl hk'
    | reply s' answer =>
      rw [hout] at hl heffect
      cases hl.of_reply
      cases heffect with
      | superseded _ => exact h.finish t
      | commits _ => exact ⟨refreshSnapshot_ranged _ _ _ hranged, h.maxStaleness, (h.finish t).tasks⟩
  | @replyTrap t k r _ _ htrap =>
    have heffect := resume_effect (D := D) w.now k r w.state
    rw [htrap] at heffect
    cases heffect
  | upgrade hup =>
    rw [postUpgrade_some hup]
    exact ⟨h.snapshot, h.maxStaleness, fun _ _ hk => (Option.some_ne_none _ hk.symm).elim⟩
  | wait hn => exact ⟨h.snapshot.mono hn, h.maxStaleness, fun t k hk => (h.tasks t k hk).mono hn⟩
  | elsewhere hm => exact hm.elim
  | others hs => exact hs.elim

theorem reachable_ranged (run : (monitoring D Published).Reachable w) : AllRanged w :=
  run.invariant (I := AllRanged) (fun _ h => installed_ranged h)
    fun _ _ _ _ h _ hstep => step_ranged h hstep

end Runs

/-- A snapshot the monitor shows, its source of attestations being the pool and its clock
within its width. -/
def Committable (s : SolvencySnapshot) : Prop :=
  ∃ (D : Deployment) (w : MonitorWorld), (monitoring D Published).Reachable w ∧ w.now ≤ u64Max ∧
    w.state.snapshot = s

/-- The page reads back all that the monitor encodes, is green on it only with everything in
order, and what else it accepts is the encoding of its value exactly if the bit it does not read
agrees. -/
theorem encoder_parser_agree (s : SolvencySnapshot) (bs bs' : Bytes) :
    (Committable s → parseCanonicalSnapshot s.canonicalBytes = .ok (parsedOf s) ∧
      ∀ verified certTimeNs,
        (deriveDisplayState ⟨verified, some s.canonicalBytes, some certTimeNs⟩).light = .green ↔
          verified = true ∧ certTimeNs - s.refreshedAtNs ≤ s.maxStalenessNs ∧ (parsedOf s).AllWell) ∧
    (∀ p, parseCanonicalSnapshot bs = .ok p →
      (p.schemaVersion ∈ acceptedSchemaVersions ∧
        (snapshotOf p).flags &&& reservedMask p.schemaVersion = 0 ∧
        (snapshotOf p).canonicalBytes = bs ↔ StrayBitAgrees bs)) ∧
    ∀ p, parseCanonicalSnapshot bs = .ok p → parseCanonicalSnapshot bs' = .ok p →
      StrayBitAgrees bs → StrayBitAgrees bs' → bs = bs' := by
  refine ⟨?_, ?_, ?_⟩
  · rintro ⟨D, w, run, hnow, rfl⟩
    have hparse := parse_canonicalBytes (reachable_ranged run).snapshot hnow
    refine ⟨hparse, fun verified certTimeNs => ?_⟩
    rw [deriveDisplayState_green_iff]
    constructor
    · rintro ⟨hverified, _, _, p, ⟨⟩, ⟨⟩, hp, hage, hwell⟩
      cases Except.ok.inj (hparse.symm.trans hp)
      exact ⟨hverified, hage, hwell⟩
    · rintro ⟨hverified, hage, hwell⟩
      exact ⟨hverified, _, _, _, rfl, rfl, hparse, hage, hwell⟩
  · intro p h
    refine ⟨fun ⟨_, _, hbs⟩ => (canonicalBytes_parsed_iff h).1 hbs, fun hagrees => ?_⟩
    have hbs := (canonicalBytes_parsed_iff h).2 hagrees
    obtain ⟨-, -, hschema, hmask, -, -, -, -, hp⟩ := parse_ok h
    have hversion : p.schemaVersion = beUint bs 19 4 := congrArg (·.schemaVersion) hp
    have hflags : (snapshotOf p).flags = byteAt bs 24 := by
      rw [← hbs]
      exact (canonicalBytes_layout _).flags.symm
    exact ⟨hversion ▸ hschema, by rw [hflags, hversion]; exact hmask, hbs⟩
  · intro p h h' hagrees hagrees'
    rw [← (canonicalBytes_parsed_iff h).2 hagrees, ← (canonicalBytes_parsed_iff h').2 hagrees']

section Sample

/-- The bytes shown right after the install. -/
def sampleBytes : Bytes := (placeholder sampleConfig sampleTime).canonicalBytes

/-- The same bytes, but for the bit that says there are stray funds. -/
def strayBytes : Bytes := sampleBytes.set 24 0b1000

theorem encoder_parser_agree_sample : Committable (placeholder sampleConfig sampleTime) ∧
    parseCanonicalSnapshot sampleBytes = .ok (parsedOf (placeholder sampleConfig sampleTime)) ∧
    (snapshotOf (parsedOf (placeholder sampleConfig sampleTime))).canonicalBytes = sampleBytes := by
  have hcommittable : Committable (placeholder sampleConfig sampleTime) :=
    ⟨sampleDeployment, sampleWorld, .start sampleWorld_installed, by decide, rfl⟩
  obtain ⟨hread, hwritten, -⟩ :=
    encoder_parser_agree (placeholder sampleConfig sampleTime) sampleBytes sampleBytes
  obtain ⟨hparse, -⟩ := hread hcommittable
  have hagrees : StrayBitAgrees sampleBytes := by decide +kernel
  exact ⟨hcommittable, hparse, ((hwritten _ hparse).2 hagrees).2.2⟩

theorem strayBytes_parsed : parseCanonicalSnapshot strayBytes =
    .ok (parsedOf (placeholder sampleConfig sampleTime)) := by
  decide +kernel

/-- Bytes that say there are stray funds beside an amount of zero are accepted, for a value whose
encoding they are not. -/
theorem stray_bit_unread :
    ¬(∀ bs p, parseCanonicalSnapshot bs = .ok p → (snapshotOf p).canonicalBytes = bs) ∧
      ¬∀ bs bs' p, parseCanonicalSnapshot bs = .ok p → parseCanonicalSnapshot bs' = .ok p →
        bs = bs' := by
  have hne : sampleBytes ≠ strayBytes := by decide +kernel
  have hparsed : parseCanonicalSnapshot sampleBytes =
      .ok (parsedOf (placeholder sampleConfig sampleTime)) := by decide +kernel
  exact ⟨fun h => hne ((h _ _ hparsed).symm.trans (h _ _ strayBytes_parsed)),
    fun h => hne (h _ _ _ hparsed strayBytes_parsed)⟩

end Sample

end StshProtocol.SmokeAlarm
