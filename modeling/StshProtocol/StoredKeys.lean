import StshProtocol.Token.Identity
import StshProtocol.Vesting.Runs
import StshProtocol.Vetkeys.Owners

/-! The keys of the stored maps.

A key is written from parts of a fixed width, or behind their lengths, so no two keys are written
alike. A map is ordered as the bytes of its keys are: a struct compares its fields one after the
other, and fields of one width each are compared as their bytes one after the other
(`compare_parts`). So the rows of one owner are an interval, and the rows that expire first come
first. -/
namespace StshProtocol.StoredKeys
open Foundation ShieldedPool Vesting

/-! ### The order of fields -/

/-- Two fields of one width each are ordered as their bytes, one after the other. -/
theorem compare_parts {p q x y : Bytes} (h : p.length = q.length) :
    compare (p ++ x) (q ++ y) = (compare p q).then (compare x y) := by
  by_cases hpq : p = q
  · subst hpq
    rw [ByteKeys.compare_append, Std.compare_self]
    rfl
  · rw [ByteKeys.compare_append_of_ne h hpq]
    cases hc : compare p q with
    | lt => rfl
    | gt => rfl
    | eq => exact absurd (Std.compare_eq_iff_eq.1 hc) hpq

/-- Numbers of one width are ordered as their big-endian bytes. -/
theorem compare_expiry (m n : UInt64) :
    compare (Bytes.toBe 8 m.toNat) (Bytes.toBe 8 n.toNat) = compare m.toNat n.toNat := by
  rw [ByteKeys.compare_eq_ofBe (by rw [Bytes.length_toBe, Bytes.length_toBe]),
    Bytes.ofBe_toBe (Nat.lt_of_lt_of_le m.toNat_lt (by decide)),
    Bytes.ofBe_toBe (Nat.lt_of_lt_of_le n.toNat_lt (by decide))]

/-! ### The vetkeys canister -/

section Vetkeys
open Vetkeys

def principalKeyBytes : Nat := 1 + principalMaxBytes

def deviceIdKeyBytes : Nat := 1 + maxDeviceIdBytes

/-- A device's id, not empty and within the bound. -/
structure DeviceId where
  bytes : Bytes
  nonempty : bytes ≠ []
  bounded : bytes.length ≤ maxDeviceIdBytes

def DeviceId.key (id : DeviceId) : DeviceIdKey :=
  UInt8.ofNat id.bytes.length :: id.bytes ++ List.replicate (maxDeviceIdBytes - id.bytes.length) 0

/-- It is the key the code makes of the id. -/
theorem DeviceId.new_eq (id : DeviceId) : DeviceIdKey.new id.bytes = some id.key :=
  if_neg (not_or.2 ⟨id.nonempty, Nat.not_lt.2 id.bounded⟩)

/-- `PrincipalKey` and `DeviceIdKey` are arrays of these widths. -/
structure DeviceKey where
  owner : PrincipalKey
  deviceId : DeviceIdKey
  owner_width : owner.length = principalKeyBytes
  id_width : deviceId.length = deviceIdKeyBytes

structure NonceKey where
  owner : PrincipalKey
  issuerDeviceId : DeviceIdKey
  nonce : Bytes
  owner_width : owner.length = principalKeyBytes
  id_width : issuerDeviceId.length = deviceIdKeyBytes
  nonce_width : nonce.length = 16

structure NonceExpiryKey where
  expiryNs : UInt64
  nonceKey : NonceKey

structure SightingExpiryKey where
  expiryNs : UInt64
  who : PrincipalKey
  who_width : who.length = principalKeyBytes

/-! The orders that are derived: field by field, in the order of the fields. -/

instance : Ord DeviceKey := ⟨compareLex (compareOn (·.owner)) (compareOn (·.deviceId))⟩

instance : Ord NonceKey :=
  ⟨compareLex (compareOn (·.owner)) (compareLex (compareOn (·.issuerDeviceId)) (compareOn (·.nonce)))⟩

instance : Ord NonceExpiryKey :=
  ⟨compareLex (compareOn (·.expiryNs.toNat)) (compareOn (·.nonceKey))⟩

instance : Ord SightingExpiryKey :=
  ⟨compareLex (compareOn (·.expiryNs.toNat)) (compareOn (·.who))⟩

def DeviceKey.toBytes (k : DeviceKey) : Bytes := deviceKey k.owner k.deviceId

def NonceKey.toBytes (k : NonceKey) : Bytes := nonceKey k.owner k.issuerDeviceId k.nonce

def NonceExpiryKey.toBytes (k : NonceExpiryKey) : Bytes :=
  Bytes.toBe 8 k.expiryNs.toNat ++ k.nonceKey.toBytes

def SightingExpiryKey.toBytes (k : SightingExpiryKey) : Bytes :=
  Bytes.toBe 8 k.expiryNs.toNat ++ k.who

/-- The least and the greatest key of an owner. -/
def DeviceKey.ownerRange (owner : PrincipalBytes) : DeviceKey × DeviceKey :=
  (⟨PrincipalKey.new owner, List.replicate deviceIdKeyBytes 0x00, length_principalKey owner,
      List.length_replicate⟩,
    ⟨PrincipalKey.new owner, List.replicate deviceIdKeyBytes 0xFF, length_principalKey owner,
      List.length_replicate⟩)

/-- The inclusive range holds the key. -/
def DeviceKey.Within (range : DeviceKey × DeviceKey) (k : DeviceKey) : Prop :=
  (compare range.1 k).isLE = true ∧ (compare k range.2).isLE = true

/-! What is written is read in one way. -/

theorem DeviceId.key_inj {i j : DeviceId} (h : i.key = j.key) : i = j := by
  obtain ⟨hhead, htail⟩ := List.cons.inj h
  have hi := i.bounded
  have hj := j.bounded
  have hmax : maxDeviceIdBytes < 256 := by decide
  have hlen : i.bytes.length = j.bytes.length := by
    have hbytes := congrArg UInt8.toNat hhead
    rw [UInt8.toNat_ofNat', UInt8.toNat_ofNat'] at hbytes
    omega
  have hbytes := (List.append_inj htail hlen).1
  cases i
  cases j
  cases hbytes
  rfl

theorem DeviceKey.toBytes_inj {j k : DeviceKey} (h : j.toBytes = k.toBytes) : j = k := by
  obtain ⟨howner, hid⟩ := List.append_inj h (j.owner_width.trans k.owner_width.symm)
  cases j
  cases k
  cases howner
  cases hid
  rfl

theorem NonceKey.toBytes_inj {j k : NonceKey} (h : j.toBytes = k.toBytes) : j = k := by
  have hwidth : (j.owner ++ j.issuerDeviceId).length = (k.owner ++ k.issuerDeviceId).length := by
    rw [List.length_append, List.length_append, j.owner_width, j.id_width, k.owner_width, k.id_width]
  obtain ⟨hboth, hnonce⟩ := List.append_inj h hwidth
  obtain ⟨howner, hid⟩ := List.append_inj hboth (j.owner_width.trans k.owner_width.symm)
  cases j
  cases k
  cases howner
  cases hid
  cases hnonce
  rfl

/-- What follows a big-endian number is read behind it. -/
theorem expiry_append_inj {m n : UInt64} {x y : Bytes}
    (h : Bytes.toBe 8 m.toNat ++ x = Bytes.toBe 8 n.toNat ++ y) : m = n ∧ x = y := by
  obtain ⟨hexpiry, hrest⟩ := List.append_inj h (by rw [Bytes.length_toBe, Bytes.length_toBe])
  exact ⟨UInt64.toNat_inj.1 (toBe_inj (Nat.lt_of_lt_of_le m.toNat_lt (by decide))
    (Nat.lt_of_lt_of_le n.toNat_lt (by decide)) hexpiry), hrest⟩

theorem NonceExpiryKey.toBytes_inj {j k : NonceExpiryKey} (h : j.toBytes = k.toBytes) : j = k := by
  obtain ⟨hexpiry, hrest⟩ := expiry_append_inj h
  cases j
  cases k
  cases hexpiry
  cases NonceKey.toBytes_inj hrest
  rfl

theorem SightingExpiryKey.toBytes_inj {j k : SightingExpiryKey} (h : j.toBytes = k.toBytes) :
    j = k := by
  obtain ⟨hexpiry, hrest⟩ := expiry_append_inj h
  cases j
  cases k
  cases hexpiry
  cases hrest
  rfl

/-! The derived order is the order of the bytes. -/

theorem DeviceKey.compare_toBytes (j k : DeviceKey) : compare j k = compare j.toBytes k.toBytes :=
  (compare_parts (j.owner_width.trans k.owner_width.symm)).symm

theorem NonceKey.compare_toBytes (j k : NonceKey) : compare j k = compare j.toBytes k.toBytes := by
  rw [NonceKey.toBytes, NonceKey.toBytes, nonceKey, nonceKey, List.append_assoc, List.append_assoc,
    compare_parts (j.owner_width.trans k.owner_width.symm),
    compare_parts (j.id_width.trans k.id_width.symm)]
  rfl

theorem compare_expiry_first (m n : UInt64) (x y : Bytes) :
    compare (Bytes.toBe 8 m.toNat ++ x) (Bytes.toBe 8 n.toNat ++ y) =
      (compare m.toNat n.toNat).then (compare x y) := by
  rw [compare_parts (by rw [Bytes.length_toBe, Bytes.length_toBe]), compare_expiry]

theorem NonceExpiryKey.compare_toBytes (j k : NonceExpiryKey) :
    compare j k = compare j.toBytes k.toBytes := by
  rw [NonceExpiryKey.toBytes, NonceExpiryKey.toBytes, compare_expiry_first, ← NonceKey.compare_toBytes]
  rfl

theorem SightingExpiryKey.compare_toBytes (j k : SightingExpiryKey) :
    compare j k = compare j.toBytes k.toBytes :=
  (compare_expiry_first j.expiryNs k.expiryNs j.who k.who).symm

/-- The expiry decides the order where it differs. -/
theorem then_of_lt {m n : Nat} (h : m < n) (o : Ordering) : (compare m n).then o = .lt := by
  rw [Nat.compare_eq_lt.2 h]
  rfl

theorem DeviceKey.within_ownerRange_iff (owner : PrincipalBytes) (k : DeviceKey) :
    DeviceKey.Within (DeviceKey.ownerRange owner) k ↔ k.owner = PrincipalKey.new owner := by
  have hrange := ByteKeys.range_iff (x := k.deviceId)
    ((length_principalKey owner).trans k.owner_width.symm)
  rw [k.id_width] at hrange
  rw [DeviceKey.Within, DeviceKey.compare_toBytes, DeviceKey.compare_toBytes]
  exact hrange.trans eq_comm

/-- The key of a principal's device. -/
def DeviceKey.of (owner : PrincipalBytes) (id : DeviceId) : DeviceKey :=
  ⟨PrincipalKey.new owner, id.key, length_principalKey owner, length_deviceIdKey id.new_eq⟩

end Vetkeys

/-! ### The token's accounts -/

section Token
open Token

theorem principalSlice_toPrincipal (p : PrincipalBytes) : principalSlice p.toPrincipal = p.asSlice := by
  have hp := p.short
  have hlen : (p.sized ++ List.replicate (29 - p.asSlice.length) (0 : UInt8)).length = 30 := by
    simp only [PrincipalBytes.sized, List.length_append, List.length_cons, List.length_replicate]
    omega
  have hlt : Bytes.ofBe (p.sized ++ List.replicate (29 - p.asSlice.length) 0) < 2 ^ 240 :=
    Nat.lt_of_lt_of_eq (Bytes.ofBe_lt _) ((congrArg (256 ^ ·) hlen).trans (by decide))
  rw [principalSlice, PrincipalBytes.toPrincipal, BitVec.toNat_ofNat, Nat.mod_eq_of_lt hlt,
    Bytes.toBe_ofBe hlen, PrincipalBytes.sized]
  have hbyte : (UInt8.ofNat p.asSlice.length).toNat = p.asSlice.length := by
    rw [UInt8.toNat_ofNat']
    omega
  show List.take _ (p.asSlice ++ _) = _
  rw [hbyte, List.take_left]

/-- The account of a principal. -/
def accountOf (p : PrincipalBytes) (subaccount : Option Bytes32) : Token.Account :=
  ⟨p.toPrincipal, subaccount⟩

theorem identity_accountOf {p q : PrincipalBytes} {s t : Option Bytes32} :
    (accountOf p s).identity = (accountOf q t).identity ↔ p = q ∧ s.getD 0 = t.getD 0 := by
  rw [Token.Account.identity, Token.Account.identity, Prod.mk.injEq]
  show principalSlice p.toPrincipal = principalSlice q.toPrincipal ∧ _ ↔ _
  rw [principalSlice_toPrincipal, principalSlice_toPrincipal]
  refine and_congr ⟨fun h => ?_, fun h => by rw [h]⟩ Iff.rfl
  cases p
  cases q
  cases h
  rfl

theorem compoundKey_inj {a b c d : Token.Account} :
    compoundKey a.encodeKey b.encodeKey = compoundKey c.encodeKey d.encodeKey ↔
      a.identity = c.identity ∧ b.identity = d.identity := by
  have hkey : ∀ x y : Token.Account, compoundKey x.encodeKey y.encodeKey =
      lenPrefixed x.encodeKey ++ (lenPrefixed y.encodeKey ++ []) := fun x y => by
    rw [compoundKey, lenPrefixed, lenPrefixed, List.append_nil]
    simp only [List.append_assoc]
  rw [hkey, hkey, account_append_inj, account_append_inj, and_iff_left rfl]

end Token

/-! ### The tombstones of a beneficiary -/

section Vesting
open VestingState

/-- A number a claim was given. -/
def IsMinted (m : TransferOutcomeMarker) : Prop := ∀ n, m.claimSeq = some n → n ≤ usizeMax

/-- Every number in the state was given to a claim. -/
structure Minted (s : VestingState) : Prop where
  markers : ∀ b m, s.marker b = some m → IsMinted m
  tombstones : ∀ c n, n ≤ u64Max → s.tombstone c n ≠ none → n ≤ usizeMax

def MintedOutcome : VestingOutcome → Prop
  | .reply s _ => Minted s
  | .call s t _ => Minted s ∧ IsMinted t.opMarker
  | .trap => True

section Ops
variable {s s' : VestingState} {b : PrincipalBytes} {m : TransferOutcomeMarker}

theorem nextClaimSeq_le {n : Nat} (h : s.nextClaimSeq b = some n) : n ≤ usizeMax := by
  obtain ⟨rfl, hle⟩ := nextClaimSeq_eq.1 h
  exact hle

theorem Minted.congr (h : Minted s) (hmarkers : s'.transferOutcomeUnknown = s.transferOutcomeUnknown)
    (htombstones : s'.terminalClaimTombstones = s.terminalClaimTombstones) : Minted s' where
  markers b m hm := h.markers b m (by rw [marker, ← hmarkers]; exact hm)
  tombstones c n hn ht := h.tombstones c n hn (by rw [tombstone, ← htombstones]; exact ht)

theorem Minted.putMarker (h : Minted s) (hm : IsMinted m) : Minted (s.putMarker b m) where
  markers c m' hc := by
    have hrow : (s.transferOutcomeUnknown.insert (principalKey b) m)[principalKey c]? = some m' := hc
    rw [StableMap.get_insert] at hrow
    split at hrow
    · cases hrow
      exact hm
    · exact h.markers c m' hrow
  tombstones := h.tombstones

theorem Minted.removeMarker (h : Minted s) : Minted (s.removeMarker b) where
  markers c m' hc := by
    have hrow : (s.transferOutcomeUnknown.erase (principalKey b))[principalKey c]? = some m' := hc
    rw [StableMap.get_erase] at hrow
    split at hrow
    · cases hrow
    · exact h.markers c m' hrow
  tombstones := h.tombstones

theorem Minted.writeTombstone (h : Minted s) {seq : Nat} (hseq : seq ≤ usizeMax)
    (t : TerminalClaimTombstone) : Minted (s.writeTombstone (tombstoneKey b seq) t) := by
  unfold VestingState.writeTombstone
  split
  · exact h
  · refine ⟨h.markers, fun c n hn ht => ?_⟩
    have hrow : (s.terminalClaimTombstones.insert (tombstoneKey b seq) t)[tombstoneKey c n]? ≠ none := ht
    rw [StableMap.get_insert] at hrow
    split at hrow
    · next heq =>
      have hlt := usizeMax_lt
      rw [← (tombstoneKey_inj (by omega) hn heq).2]
      exact hseq
    · exact h.tombstones c n hn hrow

theorem Minted.revertClaimed (h : Minted s) (n : Nat) : Minted (s.revertClaimed b n) := by
  unfold VestingState.revertClaimed
  split
  · exact h.congr rfl rfl
  · exact h

theorem Minted.resolve (h : Minted s) (hm : IsMinted m) {resolution : ClaimResolution} {now : Nat}
    (hs : s.resolveMarkerWithTombstone b m resolution now = some s') : Minted s' := by
  obtain ⟨seq, hseq, hs⟩ := Option.bind_eq_some_iff.1 hs
  cases hs
  have hle : seq ≤ usizeMax := by
    cases hclaim : m.claimSeq with
    | none =>
      rw [hclaim] at hseq
      exact nextClaimSeq_le hseq
    | some n =>
      rw [hclaim] at hseq
      cases hseq
      exact hm seq hclaim
  exact (h.writeTombstone hle _).removeMarker

theorem minted_claim (h : Minted s) (now : Nat) : MintedOutcome (claim now b s) := by
  have heffect := claim_effect now b s
  generalize claim now b s = outcome at heffect
  cases heffect with
  | refused => exact h
  | trapped => trivial
  | @opened s' sch o hsch hfree hamount hseq hle hs htombs hops =>
    have hmarker : IsMinted (o.marker false) := fun n hn => by
      cases hn
      omega
    refine ⟨⟨fun c m hm => ?_, fun c n hn ht => h.tombstones c n hn ?_⟩, hmarker⟩
    · have hmark : s'.marker c = (Function.update s.account b _ c).marker :=
        congrArg Vesting.Account.marker (congrFun hs c)
      rw [hm] at hmark
      by_cases hc : c = b
      · subst hc
        rw [Function.update_self] at hmark
        cases hmark
        exact hmarker
      · rw [Function.update_of_ne hc] at hmark
        exact h.markers c m hmark.symm
    · rw [tombstone, ← htombs]
      exact ht

theorem minted_resolveClaim (h : Minted s) {t : ClaimTask} (ht : IsMinted t.opMarker) (now : Nat)
    (resolution : ClaimResolution) (result : Except String Nat) :
    MintedOutcome (resolveClaim now t resolution result s) := by
  unfold resolveClaim
  split
  · next s' hs => exact h.resolve ht hs
  · trivial

theorem minted_claimAnswered (h : Minted s) {t : ClaimTask} (ht : IsMinted t.opMarker)
    (D : Deployment) (now : Nat) (r : LedgerReply) : MintedOutcome (claimAnswered D now t r s) := by
  have hstuck : Minted (s.putMarker t.beneficiary {t.opMarker with unknown := true}) :=
    h.putMarker ht
  unfold claimAnswered
  split
  · exact minted_resolveClaim h ht _ _ _
  · exact minted_resolveClaim h ht _ _ _
  · exact minted_resolveClaim (h.revertClaimed _) ht _ _ _
  · exact hstuck
  · exact hstuck
  · exact hstuck

theorem minted_reconcileStuck (h : Minted s) (hm : IsMinted m) (now : Nat) (decision : ClaimDecision) :
    MintedOutcome (reconcileStuck now b m decision s) := by
  unfold reconcileStuck
  cases decision with
  | executed =>
    dsimp only
    split
    · next s' hs => exact h.resolve hm hs
    · trivial
  | notExecuted =>
    cases m.pendingAmount with
    | none => exact h
    | some amount =>
      dsimp only
      split
      · next s' hs => exact (h.revertClaimed _).resolve hm hs
      · trivial

theorem minted_reconcileClaim (h : Minted s) (now : Nat) (caller : PrincipalBytes)
    (decision : ClaimDecision) : MintedOutcome (reconcileClaim now caller b decision s) := by
  have heffect := reconcileClaim_effect now caller b decision s
  generalize reconcileClaim now caller b decision s = outcome at heffect
  cases heffect with
  | refused => exact h
  | stuck hm hu => exact minted_reconcileStuck h (h.markers b _ hm) now decision

theorem Minted.sweep (h : Minted s) : Minted s.sweepInflightMarkersOnUpgrade where
  markers c m hm := by
    have hmark := congrArg Vesting.Account.marker (account_sweep s c)
    have hm' : (s.marker c).map (fun m => {m with unknown := true}) = some m := hmark.symm.trans hm
    obtain ⟨m₀, hm₀, rfl⟩ := Option.map_eq_some_iff.1 hm'
    exact h.markers c m₀ hm₀
  tombstones := h.tombstones

end Ops

/-- The world's numbers were given to claims. -/
structure WorldMinted (w : VestingWorld) : Prop where
  state : Minted w.state
  tasks : ∀ t k, w.tasks t = some k → IsMinted k.opMarker

variable {D : Deployment} {w w' : VestingWorld}

theorem WorldMinted.lands (h : WorldMinted w) {o : VestingOutcome} (ho : MintedOutcome o)
    (hl : Lands ledgerService w o w') : WorldMinted w' := by
  cases hl with
  | reply => exact ⟨ho, h.tasks⟩
  | call he =>
    refine ⟨ho.1, fun t k hk => ?_⟩
    rcases World.of_tasks_suspend hk with ⟨-, rfl⟩ | ⟨-, hk⟩
    · exact ho.2
    · exact h.tasks t k hk

theorem WorldMinted.finish (h : WorldMinted w) (t : Nat) : WorldMinted (w.finish t) :=
  ⟨h.state, fun u k hk => h.tasks u k (World.of_tasks_finish hk).2⟩

theorem minted_step {e : Event Input LedgerReply} (h : WorldMinted w)
    (hstep : (canister D).Step ledgerService w e w') : WorldMinted w' := by
  cases hstep with
  | @call _ i hl =>
    cases i with
    | claim caller => exact h.lands (minted_claim h.state w.now) hl
    | reconcileClaim caller b decision =>
      exact h.lands (minted_reconcileClaim h.state w.now caller decision) hl
  | callTrap => exact h
  | reply hk hr hl =>
    exact (h.finish _).lands (minted_claimAnswered h.state (h.tasks _ _ hk) D w.now _) hl
  | replyTrap hk hr htrap => exact h.finish _
  | upgrade hup =>
    obtain ⟨token, controller, rfl⟩ := postUpgrade_eq (D := D) hup
    have hbound : Minted {w.state with tokenCanister := some token, controller := some controller} :=
      h.state.congr rfl rfl
    exact ⟨hbound.sweep, fun t k hk => nomatch hk⟩
  | wait hle => exact ⟨h.state, h.tasks⟩
  | elsewhere hmove => exact ⟨h.state, h.tasks⟩
  | others hother =>
    obtain ⟨p, hp⟩ := hother
    obtain ⟨token, hs⟩ := rebindController_eq hp
    rw [hs]
    exact ⟨h.state.congr rfl rfl, h.tasks⟩

theorem minted_reachable (run : (system D).Reachable w) : WorldMinted w := by
  refine run.invariant (I := WorldMinted) (fun w h => ?_)
    fun w e w' _ h _ hstep => minted_step (D := D) (e := e) h hstep
  obtain ⟨⟨args, hinit⟩, -, htasks⟩ := h
  obtain ⟨-, hmarkers, htombstones, -⟩ := init_unclaimed hinit
  refine ⟨⟨fun b m hm => ?_, fun c n _ ht => ?_⟩, fun t k hk => ?_⟩
  · rw [marker, hmarkers] at hm
    cases hm
  · rw [tombstone, htombstones] at ht
    exact absurd rfl ht
  · rw [htasks] at hk
    cases hk

/-- A stored tombstone is in a beneficiary's range exactly if it is the beneficiary's. -/
theorem stored_inRange_iff (run : (system D).Reachable w) {b c : PrincipalBytes} {n : Nat}
    (hn : n ≤ u64Max) (h : w.state.tombstone c n ≠ none) :
    StableMap.InRange (tombstoneKey b 0) (tombstoneKey b u64Max) (tombstoneKey c n) ↔ c = b := by
  have hle := (minted_reachable run).state.tombstones c n hn h
  exact inRange_tombstoneKey (Nat.lt_of_le_of_lt hle usizeMax_lt)

end Vesting

/-! ### All of them -/

/-- No two keys of the vetkeys canister are written alike. -/
structure VetkeysInjective : Prop where
  principal : ∀ p q, Vetkeys.PrincipalKey.new p = Vetkeys.PrincipalKey.new q → p = q
  deviceId : ∀ i j : DeviceId, i.key = j.key → i = j
  device : ∀ j k : DeviceKey, j.toBytes = k.toBytes → j = k
  nonce : ∀ j k : NonceKey, j.toBytes = k.toBytes → j = k
  nonceExpiry : ∀ j k : NonceExpiryKey, j.toBytes = k.toBytes → j = k
  sightingExpiry : ∀ j k : SightingExpiryKey, j.toBytes = k.toBytes → j = k

/-- They are ordered as they are written, by their expiry first where they have one. -/
structure VetkeysOrdered : Prop where
  device : ∀ j k : DeviceKey, compare j k = compare j.toBytes k.toBytes
  nonce : ∀ j k : NonceKey, compare j k = compare j.toBytes k.toBytes
  nonceExpiry : ∀ j k : NonceExpiryKey, compare j k = compare j.toBytes k.toBytes
  sightingExpiry : ∀ j k : SightingExpiryKey, compare j k = compare j.toBytes k.toBytes
  nonceExpiryFirst : ∀ j k : NonceExpiryKey, j.expiryNs < k.expiryNs → compare j k = .lt
  sightingExpiryFirst : ∀ j k : SightingExpiryKey, j.expiryNs < k.expiryNs → compare j k = .lt

/-- The token's keys tell accounts apart, and the canister's claims their tombstones. -/
structure AccountsInjective : Prop where
  account : ∀ p q s t, (accountOf p s).encodeKey = (accountOf q t).encodeKey ↔
    p = q ∧ s.getD 0 = t.getD 0
  pair : ∀ p q p' q' s t s' t',
    Token.compoundKey (accountOf p s).encodeKey (accountOf q t).encodeKey =
        Token.compoundKey (accountOf p' s').encodeKey (accountOf q' t').encodeKey ↔
      (p = p' ∧ s.getD 0 = s'.getD 0) ∧ q = q' ∧ t.getD 0 = t'.getD 0
  tombstone : ∀ (b c : PrincipalBytes) (m n : UInt64),
    tombstoneKey b m.toNat = tombstoneKey c n.toNat → b = c ∧ m = n

theorem vetkeysInjective : VetkeysInjective where
  principal _ _ := Vetkeys.principalKey_new_inj
  deviceId _ _ := DeviceId.key_inj
  device _ _ := DeviceKey.toBytes_inj
  nonce _ _ := NonceKey.toBytes_inj
  nonceExpiry _ _ := NonceExpiryKey.toBytes_inj
  sightingExpiry _ _ := SightingExpiryKey.toBytes_inj

theorem vetkeysOrdered : VetkeysOrdered where
  device := DeviceKey.compare_toBytes
  nonce := NonceKey.compare_toBytes
  nonceExpiry := NonceExpiryKey.compare_toBytes
  sightingExpiry := SightingExpiryKey.compare_toBytes
  nonceExpiryFirst _ _ h := then_of_lt (UInt64.lt_iff_toNat_lt.1 h) _
  sightingExpiryFirst _ _ h := then_of_lt (UInt64.lt_iff_toNat_lt.1 h) _

theorem toNat_le_u64Max (n : UInt64) : n.toNat ≤ u64Max := Nat.le_of_lt_succ n.toNat_lt

theorem accountsInjective : AccountsInjective where
  account _ _ _ _ := Token.encodeKey_inj.trans identity_accountOf
  pair _ _ _ _ _ _ _ _ := compoundKey_inj.trans (and_congr identity_accountOf identity_accountOf)
  tombstone _ _ m n h := by
    obtain ⟨hb, hseq⟩ := tombstoneKey_inj (toNat_le_u64Max m) (toNat_le_u64Max n) h
    exact ⟨hb, UInt64.toNat_inj.1 hseq⟩

/-- The keys are written without collisions and ordered as their users take them to be: an owner's
range is its devices, and a beneficiary's, in every state the canister reaches, its tombstones, in
the order of their numbers. -/
theorem keys_sound : VetkeysInjective ∧ VetkeysOrdered ∧ AccountsInjective ∧
    (∀ (owner p : PrincipalBytes) (id : DeviceId),
      DeviceKey.Within (DeviceKey.ownerRange owner) (DeviceKey.of p id) ↔ p = owner) ∧
    (∀ (b : PrincipalBytes) (m n : UInt64),
      compare (tombstoneKey b m.toNat) (tombstoneKey b n.toNat) = compare m.toNat n.toNat) ∧
    ∀ (D : Deployment) (w : VestingWorld), (system D).Reachable w →
      ∀ (b c : PrincipalBytes) (n : UInt64), w.state.tombstone c n.toNat ≠ none →
        (StableMap.InRange (tombstoneKey b 0) (tombstoneKey b u64Max) (tombstoneKey c n.toNat) ↔
          c = b) := by
  refine ⟨vetkeysInjective, vetkeysOrdered, accountsInjective, fun owner p id => ?_,
    fun b m n => compare_tombstoneKey (toNat_le_u64Max m) (toNat_le_u64Max n),
    fun D w run b c n h => stored_inRange_iff run (toNat_le_u64Max n) h⟩
  rw [DeviceKey.within_ownerRange_iff]
  exact ⟨Vetkeys.principalKey_new_inj, fun h => by rw [h]; rfl⟩

/-- A claim of a run leaves a tombstone, in its beneficiary's range. -/
theorem keys_sound_claim : ∃ w : VestingWorld, w.state.tombstone sampleBeneficiary 0 ≠ none ∧
    StableMap.InRange (tombstoneKey sampleBeneficiary 0) (tombstoneKey sampleBeneficiary u64Max)
      (tombstoneKey sampleBeneficiary 0) := by
  have hreport : (sampleRun.map fun w => (w.state.tombstone sampleBeneficiary 0).isSome) = some true := by
    decide +kernel
  obtain ⟨w, hw, hstored⟩ := Option.map_eq_some_iff.1 hreport
  have hrun : (system sampleDeployment).RunIf Truthful w := Player.run_runIf truthfulCheck_ok
    (.start ⟨⟨sampleArgs, sampleState_init⟩, ⟨0, rfl⟩, rfl⟩) hw
  have hne : w.state.tombstone sampleBeneficiary 0 ≠ none := Option.isSome_iff_ne_none.1 hstored
  obtain ⟨-, -, -, -, -, hrange⟩ := keys_sound
  exact ⟨w, hne, (hrange sampleDeployment w (hrun.mono fun _ _ _ => trivial) sampleBeneficiary
    sampleBeneficiary 0 hne).2 rfl⟩

end StshProtocol.StoredKeys
