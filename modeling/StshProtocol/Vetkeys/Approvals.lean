import StshProtocol.Vetkeys.Enrolment
import StshProtocol.Vetkeys.Nonces

/-! A signed approval serves once, and only for what was signed.

Each of the five signed operations checks that the approval has not expired, that its issuer is
an active device of the caller, that the issuer's key verifies the transcript of exactly the
operation asked for, and that the nonce has not been used; then it keeps the nonce until after
the expiry. So a transcript that has served once finds its nonce, or has expired. -/
namespace StshProtocol.Vetkeys
open Foundation ShieldedPool Vesting Handler

/-! ### The signed operations -/

/-- The windows of the rates. -/
inductive RateWindow where
  | registrations
  | replacements
  | revocations
  deriving DecidableEq

def VetkeysState.window (s : VetkeysState) :
    RateWindow → StableMap PrincipalKey RegistrationWindow
  | .registrations => s.registrations
  | .replacements => s.replacements
  | .revocations => s.revocationRate

/-- The approval that comes with a signed operation, and which window pays for it. -/
def Input.approval : Input → Option (PrincipalBytes × SignedApproval × RateWindow)
  | .registerDevice caller args =>
    match args.approval with
    | .bootstrap => none
    | .device signed => some (caller, signed, .registrations)
  | .revokeDevice caller _ approval => some (caller, approval, .revocations)
  | .replaceEnvelope caller _ _ approval => some (caller, approval, .replacements)
  | .setDeviceApprovalPolicy caller _ approval => some (caller, approval, .revocations)
  | .authorizeReBootstrap caller _ approval => some (caller, approval, .revocations)
  | .getEncryptedVetkey _ _ _ | .requestDeviceApprovalPolicyClear _ => none

/-- The operation asked for, with what is stored where it names that. -/
def Input.deed (s : VetkeysState) : Input → Option (Deed Bytes)
  | .registerDevice _ args =>
    match args.approval with
    | .bootstrap => none
    | .device signed => some (.register signed.issuerDeviceId args.deviceId args.encPubkeySpki
        args.signPubkeySpki args.wrappedSecret)
  | .revokeDevice _ deviceId approval => some (.revoke approval.issuerDeviceId deviceId)
  | .replaceEnvelope caller deviceId newEnvelope _ => do
    let d ← DeviceIdKey.new deviceId
    let stored ← s.wrappedSecrets[deviceKey (PrincipalKey.new caller) d]?
    some (.replace deviceId stored newEnvelope)
  | .setDeviceApprovalPolicy _ require approval =>
    some (.setDeviceApprovalPolicy approval.issuerDeviceId require)
  | .authorizeReBootstrap _ _ approval => some (.authorizeReBootstrap approval.issuerDeviceId)
  | .getEncryptedVetkey _ _ _ | .requestDeviceApprovalPolicyClear _ => none

/-- The id of the device that signs. -/
def Deed.issuerId {η : Type} : Deed η → Bytes
  | .register i _ _ _ _ | .revoke i _ | .replace i _ _ | .setDeviceApprovalPolicy i _
  | .authorizeReBootstrap i => i

/-- An operation done on a statement signed by an active device of the caller: it has not
expired, its nonce had not been used or that use had expired, and now it has. -/
structure Acts (D : Deployment) (nowNs : Nat) (s t : VetkeysState) (caller : PrincipalBytes)
    (signed : SignedApproval) (m : Statement) : Prop where
  canister : m.canisterId = D.self
  principal : m.principal = caller
  nonce : m.nonce.val = signed.nonce
  expiry : m.expiryNs = signed.expiryNs
  live : nowNs < m.expiryNs
  ids : ∀ id ∈ m.deed.ids, id.length ≤ maxDeviceIdBytes
  issued : ∃ issuerKey issuer, DeviceIdKey.new m.deed.issuerId = some issuerKey ∧
    s.devices[deviceKey (PrincipalKey.new caller) issuerKey]? = some issuer ∧
    issuer.status = .active ∧
    D.p256.verifies issuer.signPubkeySpki (m.transcript D.sha256) signed.signature = true ∧
    (∀ x, s.consumedNonces.rows[nonceKey (PrincipalKey.new caller) issuerKey m.nonce.val]? = some x →
      x < nowNs) ∧
    t.consumedNonces.rows[nonceKey (PrincipalKey.new caller) issuerKey m.nonce.val]? =
      some m.expiryNs

variable {D : Deployment} {nowNs : Nat} {s t u : VetkeysState} {caller : PrincipalBytes}

/-! ### What a refusal leaves -/

/-- Only the owner's row of one window has changed, and expired nonces are gone. -/
structure Tidied (kind : RateWindow) (owner : PrincipalKey) (nowNs : Nat) (s t : VetkeysState) :
    Prop where
  device : t.deviceView = s.deviceView
  derive : t.deriveView = s.deriveView
  windows : ∀ (k : RateWindow) (p : PrincipalKey), (k, p) ≠ (kind, owner) →
    (t.window k)[p]? = (s.window k)[p]?
  nonces : Pruned nowNs s.consumedNonces t.consumedNonces

section Tidied
variable {kind : RateWindow} {owner : PrincipalKey}

theorem tidied_refl (s : VetkeysState) : Tidied kind owner nowNs s s :=
  ⟨rfl, rfl, fun _ _ _ => rfl, pruned_refl _ _⟩

theorem tidied_trans (s t u : VetkeysState) (h : Tidied kind owner nowNs s t)
    (h' : Tidied kind owner nowNs t u) : Tidied kind owner nowNs s u where
  device := h'.device.trans h.device
  derive := h'.derive.trans h.derive
  windows k p hne := (h'.windows k p hne).trans (h.windows k p hne)
  nonces := h.nonces.trans h'.nonces

/-- A charge writes the owner's row of its window. -/
theorem within_chargeRate {get : VetkeysState → StableMap PrincipalKey RegistrationWindow}
    {set : StableMap PrincipalKey RegistrationWindow → VetkeysState → VetkeysState}
    (hset : ∀ s w, Tidied kind owner nowNs s (set ((get s).insert owner w) s))
    (charge : RegistrationWindow → Except Nat Unit × RegistrationWindow)
    (refusal : Nat → VetkeysError) :
    Within (Tidied kind owner nowNs) (chargeRate get set charge refusal owner) := by
  intro s r t h
  unfold chargeRate at h
  rw [exec_bind_ok (exec_read _), exec_bind_ok (exec_write _)] at h
  obtain rfl := readOnly_lift _ _ _ _ h
  exact hset s _

theorem within_chargeRegistrations :
    Within (Tidied .registrations owner nowNs) (chargeRegistrations nowNs owner) :=
  within_chargeRate (fun s w => ⟨rfl, rfl, fun k p hne => by
    cases k with
    | registrations => exact StableMap.get_insert_ne w fun h => hne (h ▸ rfl)
    | replacements | revocations => rfl, pruned_refl _ _⟩) _ _

theorem within_chargeReplacements :
    Within (Tidied .replacements owner nowNs) (chargeReplacements nowNs owner) :=
  within_chargeRate (fun s w => ⟨rfl, rfl, fun k p hne => by
    cases k with
    | replacements => exact StableMap.get_insert_ne w fun h => hne (h ▸ rfl)
    | registrations | revocations => rfl, pruned_refl _ _⟩) _ _

theorem within_chargeRevocationRate :
    Within (Tidied .revocations owner nowNs) (chargeRevocationRate nowNs owner) :=
  within_chargeRate (fun s w => ⟨rfl, rfl, fun k p hne => by
    cases k with
    | revocations => exact StableMap.get_insert_ne w fun h => hne (h ▸ rfl)
    | registrations | replacements => rfl, pruned_refl _ _⟩) _ _

theorem refuses_consumeNonce (who : PrincipalKey) (issuer : DeviceIdKey) (nonce : Nonce16)
    (expiryNs : Nat) :
    RefusesWithin (Tidied kind owner nowNs) (consumeNonce who issuer nonce expiryNs nowNs) := by
  intro s e t h
  obtain ⟨b, hpruned, rfl⟩ := consumeNonce_error h
  exact ⟨rfl, rfl, fun k _ _ => by cases k <;> rfl, hpruned⟩

/-- The end of a signed operation: the nonce is taken, and then something is written. -/
theorem refuses_consume_write {α : Type} (who : PrincipalKey) (issuer : DeviceIdKey) (nonce : Nonce16)
    (expiryNs : Nat) {f : Unit → Endpoint α} (hf : ∀ a, (f a).Sure) :
    RefusesWithin (Tidied kind owner nowNs) (consumeNonce who issuer nonce expiryNs nowNs >>= f) := by
  intro s e t h
  rcases bind_error h with hfirst | ⟨a, u, -, hrest⟩
  · exact refuses_consumeNonce who issuer nonce expiryNs s e t hfirst
  · exact absurd hrest (hf a u e t)

/-- The beginning of one: who calls, and the charge. -/
theorem refuses_charged {α β : Type} {charge : Endpoint α} {f : α → Endpoint β} (p : Prop)
    [Decidable p] (e : VetkeysError) (hcharge : Within (Tidied kind owner nowNs) charge)
    (hf : ∀ a, RefusesWithin (Tidied kind owner nowNs) (f a)) :
    RefusesWithin (Tidied kind owner nowNs) (demand p e >>= fun _ => charge >>= f) :=
  (readOnly_demand p e).bind_refuses tidied_refl fun _ => hcharge.bind_refuses tidied_trans hf

theorem refuses_approve (args : RegisterArgs) :
    RefusesWithin (Tidied kind owner nowNs) (approve D nowNs caller args) := by
  unfold approve
  cases args.approval with
  | bootstrap =>
    simp only [consumeBootstrap]
    refine (readOnly_read _).bind_refuses tidied_refl fun _ => ?_
    refine (readOnly_demand _ _).bind_refuses tidied_refl fun _ => ?_
    refine (readOnly_lift _).bind_refuses tidied_refl fun _ => Sure.refuses ?_
    exact Sure.bind (sure_write _) fun _ => sure_pure _
  | device signed =>
    simp only [approveBySignature]
    refine (readOnly_checkIssuer _ _).bind_refuses tidied_refl fun _ => ?_
    refine (readOnly_lift _).bind_refuses tidied_refl fun _ => ?_
    exact refuses_consume_write _ _ _ _ fun _ => sure_pure _

theorem refuses_registerDevice (args : RegisterArgs) :
    RefusesWithin (Tidied .registrations (PrincipalKey.new caller) nowNs)
      (registerDevice D nowNs caller args) := by
  refine refuses_charged _ _ within_chargeRegistrations fun _ => ?_
  refine (readOnly_checkNewDevice _ _).bind_refuses tidied_refl fun k s e t h => ?_
  rcases bind_error h with hfirst | ⟨a, u, -, hrest⟩
  · exact refuses_approve args s e t hfirst
  · exact absurd hrest (sure_write _ u e t)

theorem refuses_revokeDevice (deviceId : Bytes) (approval : SignedApproval) :
    RefusesWithin (Tidied .revocations (PrincipalKey.new caller) nowNs)
      (revokeDevice D nowNs caller deviceId approval) := by
  refine refuses_charged _ _ within_chargeRevocationRate fun _ => ?_
  refine (readOnly_lift _).bind_refuses tidied_refl fun _ => ?_
  refine (readOnly_checkIssuer _ _).bind_refuses tidied_refl fun _ => ?_
  refine (readOnly_lift _).bind_refuses tidied_refl fun _ => ?_
  refine (readOnly_read _).bind_refuses tidied_refl fun _ => ?_
  refine (readOnly_need _ _).bind_refuses tidied_refl fun _ => ?_
  refine (readOnly_demand _ _).bind_refuses tidied_refl fun _ => ?_
  exact refuses_consume_write _ _ _ _ fun _ => sure_write _

theorem refuses_replaceEnvelope (deviceId newEnvelope : Bytes) (approval : SignedApproval) :
    RefusesWithin (Tidied .replacements (PrincipalKey.new caller) nowNs)
      (replaceEnvelope D nowNs caller deviceId newEnvelope approval) := by
  refine refuses_charged _ _ within_chargeReplacements fun _ => ?_
  refine (readOnly_lift _).bind_refuses tidied_refl fun _ => ?_
  refine (readOnly_demand _ _).bind_refuses tidied_refl fun _ => ?_
  refine (readOnly_demand _ _).bind_refuses tidied_refl fun _ => ?_
  refine (readOnly_checkIssuer _ _).bind_refuses tidied_refl fun _ => ?_
  refine (readOnly_read _).bind_refuses tidied_refl fun _ => ?_
  refine (readOnly_need _ _).bind_refuses tidied_refl fun _ => ?_
  refine (readOnly_lift _).bind_refuses tidied_refl fun _ => ?_
  exact refuses_consume_write _ _ _ _ fun _ => sure_write _

theorem refuses_setDeviceApprovalPolicy (require : Bool) (approval : SignedApproval) :
    RefusesWithin (Tidied .revocations (PrincipalKey.new caller) nowNs)
      (setDeviceApprovalPolicy D nowNs caller require approval) := by
  refine refuses_charged _ _ within_chargeRevocationRate fun _ => ?_
  refine (readOnly_checkIssuer _ _).bind_refuses tidied_refl fun _ => ?_
  refine (readOnly_lift _).bind_refuses tidied_refl fun _ => ?_
  exact refuses_consume_write _ _ _ _ fun _ => sure_write _

theorem refuses_authorizeReBootstrap (target : PrincipalBytes) (approval : SignedApproval) :
    RefusesWithin (Tidied .revocations (PrincipalKey.new caller) nowNs)
      (authorizeReBootstrap D nowNs caller target approval) := by
  refine (readOnly_demand _ _).bind_refuses tidied_refl fun _ => ?_
  intro s e t h
  rcases (readOnly_demand _ _).bind_ends h with ⟨rfl, -⟩ | ⟨_, hsame, hrest⟩
  · exact tidied_refl _
  obtain rfl := (demand_ok_iff.1 hsame).1
  refine (within_chargeRevocationRate.bind_refuses tidied_trans fun _ => ?_) s e t hrest
  refine (readOnly_checkIssuer _ _).bind_refuses tidied_refl fun _ => ?_
  refine (readOnly_lift _).bind_refuses tidied_refl fun _ => ?_
  exact refuses_consume_write _ _ _ _ fun _ => sure_write _

end Tidied

/-! ### No message traps -/

section Safe
variable {b : Timed Bytes Nat}

theorem safe_chargeRate {get : VetkeysState → StableMap PrincipalKey RegistrationWindow}
    {set : StableMap PrincipalKey RegistrationWindow → VetkeysState → VetkeysState}
    (hset : ∀ m s, (set m s).consumedNonces = s.consumedNonces)
    (charge : RegistrationWindow → Except Nat Unit × RegistrationWindow)
    (refusal : Nat → VetkeysError) (owner : PrincipalKey) :
    Safe (NoncesFrom nowNs b) (chargeRate get set charge refusal owner) := by
  unfold chargeRate
  refine Safe.bind (safe_read _) fun _ => Safe.bind (safe_write fun s hs => ?_) fun _ => safe_lift _
  unfold NoncesFrom NoncesExact
  rw [hset]
  exact hs

theorem safe_chargeRegistrations (owner : PrincipalKey) :
    Safe (NoncesFrom nowNs b) (chargeRegistrations nowNs owner) := by
  unfold chargeRegistrations
  apply safe_chargeRate
  exact fun _ _ => rfl

theorem safe_chargeReplacements (owner : PrincipalKey) :
    Safe (NoncesFrom nowNs b) (chargeReplacements nowNs owner) := by
  unfold chargeReplacements
  apply safe_chargeRate
  exact fun _ _ => rfl

theorem safe_chargeRevocationRate (owner : PrincipalKey) :
    Safe (NoncesFrom nowNs b) (chargeRevocationRate nowNs owner) := by
  unfold chargeRevocationRate
  apply safe_chargeRate
  exact fun _ _ => rfl

theorem safe_checkIssuer (owner : PrincipalKey) (signed : SignedApproval) :
    Safe (NoncesFrom nowNs b) (checkIssuer owner signed nowNs) := by
  unfold checkIssuer
  refine Safe.bind (safe_lift _) fun _ => Safe.bind (safe_need _ _) fun _ => ?_
  refine Safe.bind (safe_demand _ _) fun _ => Safe.bind (safe_demand _ _) fun _ => ?_
  refine Safe.bind (safe_read _) fun _ => Safe.bind (safe_need _ _) fun _ => ?_
  exact Safe.bind (safe_demand _ _) fun _ => safe_pure _

theorem safe_checkNewDevice (owner : PrincipalKey) (args : RegisterArgs) :
    Safe (NoncesFrom nowNs b) (checkNewDevice owner args) := by
  unfold checkNewDevice
  refine Safe.bind (safe_lift _) fun _ => Safe.bind (safe_demand _ _) fun _ => ?_
  refine Safe.bind (safe_demand _ _) fun _ => Safe.bind (safe_demand _ _) fun _ => ?_
  refine Safe.bind (safe_demand _ _) fun _ => Safe.bind (safe_read _) fun _ => ?_
  refine Safe.bind (safe_demand _ _) fun _ => Safe.bind (safe_read _) fun _ => ?_
  exact Safe.bind (safe_demand _ _) fun _ => safe_pure _

theorem safe_approve (args : RegisterArgs) : Safe (NoncesFrom nowNs b) (approve D nowNs caller args) := by
  unfold approve
  cases args.approval with
  | bootstrap =>
    simp only [consumeBootstrap]
    refine Safe.bind (safe_read _) fun _ => Safe.bind (safe_demand _ _) fun _ => ?_
    refine Safe.bind (safe_lift _) fun _ => Safe.bind (safe_write fun _ hs => hs) fun _ => ?_
    exact safe_pure _
  | device signed =>
    simp only [approveBySignature]
    refine Safe.bind (safe_checkIssuer _ _) fun _ => Safe.bind (safe_lift _) fun _ => ?_
    exact Safe.bind (safe_consumeNonce _ _ _ _) fun _ => safe_pure _

theorem safe_registerDevice (args : RegisterArgs) :
    Safe (NoncesFrom nowNs b) (registerDevice D nowNs caller args) := by
  unfold registerDevice
  refine Safe.bind (safe_demand _ _) fun _ => ?_
  refine Safe.bind (safe_chargeRegistrations _) fun _ => ?_
  refine Safe.bind (safe_checkNewDevice _ _) fun _ => Safe.bind (safe_approve _) fun _ => ?_
  exact safe_write fun _ hs => hs

theorem safe_revokeDevice (deviceId : Bytes) (approval : SignedApproval) :
    Safe (NoncesFrom nowNs b) (revokeDevice D nowNs caller deviceId approval) := by
  unfold revokeDevice
  refine Safe.bind (safe_demand _ _) fun _ => ?_
  refine Safe.bind (safe_chargeRevocationRate _) fun _ => ?_
  refine Safe.bind (safe_lift _) fun _ => Safe.bind (safe_checkIssuer _ _) fun _ => ?_
  refine Safe.bind (safe_lift _) fun _ => Safe.bind (safe_read _) fun _ => ?_
  refine Safe.bind (safe_need _ _) fun _ => Safe.bind (safe_demand _ _) fun _ => ?_
  exact Safe.bind (safe_consumeNonce _ _ _ _) fun _ => safe_write fun _ hs => hs

theorem safe_replaceEnvelope (deviceId newEnvelope : Bytes) (approval : SignedApproval) :
    Safe (NoncesFrom nowNs b) (replaceEnvelope D nowNs caller deviceId newEnvelope approval) := by
  unfold replaceEnvelope
  refine Safe.bind (safe_demand _ _) fun _ => ?_
  refine Safe.bind (safe_chargeReplacements _) fun _ => ?_
  refine Safe.bind (safe_lift _) fun _ => Safe.bind (safe_demand _ _) fun _ => ?_
  refine Safe.bind (safe_demand _ _) fun _ => Safe.bind (safe_checkIssuer _ _) fun _ => ?_
  refine Safe.bind (safe_read _) fun _ => Safe.bind (safe_need _ _) fun _ => ?_
  refine Safe.bind (safe_lift _) fun _ => Safe.bind (safe_consumeNonce _ _ _ _) fun _ => ?_
  exact safe_write fun _ hs => hs

theorem safe_setDeviceApprovalPolicy (require : Bool) (approval : SignedApproval) :
    Safe (NoncesFrom nowNs b) (setDeviceApprovalPolicy D nowNs caller require approval) := by
  unfold setDeviceApprovalPolicy
  refine Safe.bind (safe_demand _ _) fun _ => ?_
  refine Safe.bind (safe_chargeRevocationRate _) fun _ => ?_
  refine Safe.bind (safe_checkIssuer _ _) fun _ => Safe.bind (safe_lift _) fun _ => ?_
  exact Safe.bind (safe_consumeNonce _ _ _ _) fun _ => safe_write fun _ hs => hs

theorem safe_requestDeviceApprovalPolicyClear :
    Safe (NoncesFrom nowNs b) (requestDeviceApprovalPolicyClear nowNs caller) := by
  unfold requestDeviceApprovalPolicyClear
  refine Safe.bind (safe_demand _ _) fun _ => ?_
  refine Safe.bind (safe_chargeRevocationRate _) fun _ => ?_
  refine Safe.bind (safe_read _) fun _ => Safe.bind (safe_need _ _) fun row => ?_
  cases row.pendingClearAtNs with
  | none => exact Safe.bind (safe_write fun _ hs => hs) fun _ => safe_pure _
  | some existing => exact safe_pure _

theorem safe_authorizeReBootstrap (target : PrincipalBytes) (approval : SignedApproval) :
    Safe (NoncesFrom nowNs b) (authorizeReBootstrap D nowNs caller target approval) := by
  unfold authorizeReBootstrap
  refine Safe.bind (safe_demand _ _) fun _ => Safe.bind (safe_demand _ _) fun _ => ?_
  refine Safe.bind (safe_chargeRevocationRate _) fun _ => ?_
  refine Safe.bind (safe_checkIssuer _ _) fun _ => Safe.bind (safe_lift _) fun _ => ?_
  exact Safe.bind (safe_consumeNonce _ _ _ _) fun _ => safe_write fun _ hs => hs

/-- A safe message is answered. -/
theorem answered_safe {α : Type} {x : Endpoint α} {f : Except VetkeysError α → Answer}
    (hx : Safe (NoncesFrom nowNs b) x) (hs : NoncesFrom nowNs b s) :
    ∃ t a, answered x f s = .reply t a ∧ NoncesFrom nowNs b t := by
  obtain ⟨r, t, hexec, ht⟩ := hx s hs
  exact ⟨t, f r, by rw [answered, hexec], ht⟩

/-- No device message traps, and the nonces and their index still correspond after it. -/
theorem start_safe {i : Input} (hs : NoncesExact s)
    (hi : ∀ caller transportKey live, i ≠ .getEncryptedVetkey caller transportKey live) :
    ∃ t a, start D nowNs i s = .reply t a ∧ NoncesFrom nowNs s.consumedNonces t := by
  have hfrom : NoncesFrom nowNs s.consumedNonces s := ⟨hs, kept_refl _ _⟩
  cases i with
  | getEncryptedVetkey caller transportKey live => exact absurd rfl (hi caller transportKey live)
  | registerDevice caller args => exact answered_safe (safe_registerDevice args) hfrom
  | revokeDevice caller deviceId approval =>
    exact answered_safe (safe_revokeDevice deviceId approval) hfrom
  | replaceEnvelope caller deviceId newEnvelope approval =>
    exact answered_safe (safe_replaceEnvelope deviceId newEnvelope approval) hfrom
  | setDeviceApprovalPolicy caller require approval =>
    exact answered_safe (safe_setDeviceApprovalPolicy require approval) hfrom
  | requestDeviceApprovalPolicyClear caller =>
    exact answered_safe safe_requestDeviceApprovalPolicyClear hfrom
  | authorizeReBootstrap caller target approval =>
    exact answered_safe (safe_authorizeReBootstrap target approval) hfrom

end Safe

/-! ### What a success was signed for -/

section Acts

/-- What a signed operation reads before it is done. -/
structure SigningView where
  device : DeviceView
  consumedNonces : Timed Bytes Nat

def VetkeysState.signingView (s : VetkeysState) : SigningView := ⟨s.deviceView, s.consumedNonces⟩

theorem signing_chargeRegistrations (owner : PrincipalKey) :
    Quiet VetkeysState.signingView (fun _ => True) (chargeRegistrations nowNs owner) := by
  unfold chargeRegistrations
  apply quiet_chargeRate
  exact fun _ _ => rfl

theorem signing_chargeReplacements (owner : PrincipalKey) :
    Quiet VetkeysState.signingView (fun _ => True) (chargeReplacements nowNs owner) := by
  unfold chargeReplacements
  apply quiet_chargeRate
  exact fun _ _ => rfl

theorem signing_chargeRevocationRate (owner : PrincipalKey) :
    Quiet VetkeysState.signingView (fun _ => True) (chargeRevocationRate nowNs owner) := by
  unfold chargeRevocationRate
  apply quiet_chargeRate
  exact fun _ _ => rfl

theorem checkIssuer_live {owner : PrincipalKey} {signed : SignedApproval}
    {found : DeviceIdKey × DeviceRecord × Nonce16}
    (h : (checkIssuer owner signed nowNs).exec s = .ok (.ok found, u)) :
    found.2.2.val = signed.nonce ∧ nowNs < signed.expiryNs := by
  unfold checkIssuer at h
  simp only [bind_ok_iff, pure_ok_iff, read_ok_iff, demand_ok_iff, need_ok_iff, lift_ok_iff] at h
  obtain ⟨_, _, _, nonce, _, ⟨hnonce, rfl⟩, _, _, ⟨_, rfl⟩, _, _, ⟨hlive, rfl⟩, _, _, ⟨rfl, rfl⟩, _, _,
    ⟨_, rfl⟩, _, _, ⟨_, rfl⟩, rfl, rfl⟩ := h
  refine ⟨?_, hlive⟩
  split at hnonce
  · exact congrArg Subtype.val (Option.some.inj hnonce).symm
  · cases hnonce

/-- The three steps all signed operations have: the issuer is checked, what it signed verifies,
and the nonce is taken. -/
theorem acts_of {v : VetkeysState} {signed : SignedApproval}
    {found : DeviceIdKey × DeviceRecord × Nonce16} {deed : Deed Bytes}
    (hview : u.signingView = s.signingView)
    (hissuer : (checkIssuer (PrincipalKey.new caller) signed nowNs).exec u = .ok (.ok found, u))
    (hdeed : deed.issuerId = signed.issuerDeviceId)
    (hids : ∀ id ∈ deed.ids, id = signed.issuerDeviceId ∨ id.length ≤ maxDeviceIdBytes)
    (hverifies : D.p256.verifies found.2.1.signPubkeySpki
      (Statement.transcript D.sha256 ⟨D.self, caller, deed, found.2.2, signed.expiryNs⟩)
      signed.signature = true)
    (hconsume : (consumeNonce (PrincipalKey.new caller) found.1 found.2.2 signed.expiryNs nowNs).exec
      u = .ok (.ok (), v)) (ht : t.consumedNonces = v.consumedNonces) :
    ∃ m, m.deed = deed ∧ Acts D nowNs s t caller signed m := by
  obtain ⟨hid, hrow, hactive⟩ := checkIssuer_ok hissuer
  obtain ⟨hnonce, hlive⟩ := checkIssuer_live hissuer
  obtain ⟨b, hpruned, hfresh, rfl⟩ := consumeNonce_ok hconsume
  have hdevices : u.devices = s.devices := congrArg (fun x => x.device.devices) hview
  have hnonces : u.consumedNonces = s.consumedNonces := congrArg SigningView.consumedNonces hview
  rw [hdevices] at hrow
  rw [hnonces] at hpruned
  have hlengths : ∀ id ∈ deed.ids, id.length ≤ maxDeviceIdBytes := fun id hin =>
    (hids id hin).elim (fun h => h ▸ length_of_deviceIdKey hid) fun h => h
  refine ⟨⟨D.self, caller, deed, found.2.2, signed.expiryNs⟩, rfl, rfl, rfl, hnonce, rfl, hlive,
    hlengths, found.1, found.2.1, hdeed ▸ hid, hrow, hactive, hverifies, fun x hx => ?_, ?_⟩
  · rcases hpruned.of_some hx with hkept | ⟨-, hexpired⟩
    · exact nomatch hfresh.symm.trans hkept
    · exact hexpired
  · rw [ht, StableMap.get_insert, if_pos rfl]

theorem acts_registerDevice {args : RegisterArgs} {signed : SignedApproval}
    (happroval : args.approval = .device signed)
    (h : (registerDevice D nowNs caller args).exec s = .ok (.ok (), t)) :
    ∃ m, m.deed = .register signed.issuerDeviceId args.deviceId args.encPubkeySpki
      args.signPubkeySpki args.wrappedSecret ∧ Acts D nowNs s t caller signed m := by
  unfold registerDevice at h
  obtain ⟨_, _, hdemand, hcharge⟩ := bind_ok_iff.1 h
  obtain ⟨-, rfl⟩ := demand_ok_iff.1 hdemand
  obtain ⟨_, u, hcharged, hcheck⟩ := bind_ok_iff.1 hcharge
  have hview := (signing_chargeRegistrations _ _ _ _ hcharged).1
  obtain ⟨k, u', hk, happrove⟩ := bind_ok_iff.1 hcheck
  obtain ⟨_, hnew, -⟩ := checkNewDevice_ok hk
  obtain rfl := readOnly_checkNewDevice _ _ _ _ _ hk
  obtain ⟨approvedBy, v, happroved, hwrite⟩ := bind_ok_iff.1 happrove
  rw [approve, happroval] at happroved
  simp only [approveBySignature] at happroved
  obtain ⟨found, u₁, hissuer, hverify⟩ := bind_ok_iff.1 happroved
  obtain rfl := readOnly_checkIssuer _ _ _ _ _ hissuer
  obtain ⟨_, u₂, hverified, hnonce⟩ := bind_ok_iff.1 hverify
  obtain rfl := readOnly_lift _ _ _ _ hverified
  obtain ⟨_, v', hconsume, hpure⟩ := bind_ok_iff.1 hnonce
  obtain ⟨-, rfl⟩ := pure_ok_iff.1 hpure
  obtain rfl := write_ok_iff.1 hwrite
  refine acts_of hview hissuer rfl (fun _ hid => ?_) (verifySigned_ok hverified) hconsume rfl
  simp only [Deed.ids, List.mem_cons, List.not_mem_nil, or_false] at hid
  rcases hid with rfl | rfl
  · exact .inl rfl
  · exact .inr (length_of_deviceIdKey hnew)

theorem acts_revokeDevice {deviceId : Bytes} {approval : SignedApproval}
    (h : (revokeDevice D nowNs caller deviceId approval).exec s = .ok (.ok (), t)) :
    ∃ m, m.deed = .revoke approval.issuerDeviceId deviceId ∧ Acts D nowNs s t caller approval m := by
  unfold revokeDevice at h
  obtain ⟨_, _, hdemand, hcharge⟩ := bind_ok_iff.1 h
  obtain ⟨-, rfl⟩ := demand_ok_iff.1 hdemand
  obtain ⟨_, u, hcharged, htarget⟩ := bind_ok_iff.1 hcharge
  have hview := (signing_chargeRevocationRate _ _ _ _ hcharged).1
  obtain ⟨_, _, hlift, hcheck⟩ := bind_ok_iff.1 htarget
  obtain ⟨htargetId, rfl⟩ := lift_ok_iff.1 hlift
  obtain ⟨found, _, hissuer, hverify⟩ := bind_ok_iff.1 hcheck
  obtain rfl := readOnly_checkIssuer _ _ _ _ _ hissuer
  obtain ⟨_, _, hverified, hread⟩ := bind_ok_iff.1 hverify
  obtain rfl := readOnly_lift _ _ _ _ hverified
  obtain ⟨_, _, hrow, hneed⟩ := bind_ok_iff.1 hread
  obtain ⟨-, rfl⟩ := read_ok_iff.1 hrow
  obtain ⟨_, _, hrecord, hactive⟩ := bind_ok_iff.1 hneed
  obtain ⟨-, rfl⟩ := need_ok_iff.1 hrecord
  obtain ⟨_, _, hstatus, hnonce⟩ := bind_ok_iff.1 hactive
  obtain ⟨-, rfl⟩ := demand_ok_iff.1 hstatus
  obtain ⟨_, v, hconsume, hwrite⟩ := bind_ok_iff.1 hnonce
  obtain rfl := write_ok_iff.1 hwrite
  refine acts_of hview hissuer rfl (fun _ hid => ?_) (verifySigned_ok hverified) hconsume rfl
  simp only [Deed.ids, List.mem_cons, List.not_mem_nil, or_false] at hid
  rcases hid with rfl | rfl
  · exact .inl rfl
  · exact .inr (length_of_deviceIdKey (deviceIdKey_ok htargetId))

theorem acts_replaceEnvelope {deviceId newEnvelope : Bytes} {approval : SignedApproval}
    (h : (replaceEnvelope D nowNs caller deviceId newEnvelope approval).exec s = .ok (.ok (), t)) :
    ∃ m, (Input.replaceEnvelope caller deviceId newEnvelope approval).deed s = some m.deed ∧
      Acts D nowNs s t caller approval m := by
  unfold replaceEnvelope at h
  obtain ⟨_, _, hdemand, hcharge⟩ := bind_ok_iff.1 h
  obtain ⟨-, hstart⟩ := demand_ok_iff.1 hdemand
  rw [hstart] at hcharge
  obtain ⟨_, u, hcharged, hsubject⟩ := bind_ok_iff.1 hcharge
  have hview := (signing_chargeReplacements _ _ _ _ hcharged).1
  obtain ⟨subject, _, hlift, hfits⟩ := bind_ok_iff.1 hsubject
  obtain ⟨hid, rfl⟩ := lift_ok_iff.1 hlift
  obtain ⟨_, _, hfit, hown⟩ := bind_ok_iff.1 hfits
  obtain ⟨-, rfl⟩ := demand_ok_iff.1 hfit
  obtain ⟨_, _, hsubject', hcheck⟩ := bind_ok_iff.1 hown
  obtain ⟨hsame, rfl⟩ := demand_ok_iff.1 hsubject'
  obtain ⟨found, _, hissuer, hread⟩ := bind_ok_iff.1 hcheck
  obtain rfl := readOnly_checkIssuer _ _ _ _ _ hissuer
  obtain ⟨_, _, hrow, hneed⟩ := bind_ok_iff.1 hread
  obtain ⟨rfl, rfl⟩ := read_ok_iff.1 hrow
  obtain ⟨old, _, hstored, hverify⟩ := bind_ok_iff.1 hneed
  obtain ⟨hold, rfl⟩ := need_ok_iff.1 hstored
  obtain ⟨_, _, hlifted, hnonce⟩ := bind_ok_iff.1 hverify
  obtain ⟨hverified, rfl⟩ := lift_ok_iff.1 hlifted
  obtain ⟨_, v, hconsume, hwrite⟩ := bind_ok_iff.1 hnonce
  have ht := write_ok_iff.1 hwrite
  have hsecrets : _ = s.wrappedSecrets :=
    congrArg (fun x : SigningView => x.device.wrappedSecrets) hview
  have hdeed : (Input.replaceEnvelope caller deviceId newEnvelope approval).deed s =
      some (.replace deviceId old newEnvelope) := by
    simp only [Input.deed, deviceIdKey_ok hid, Option.bind_eq_bind, Option.bind_some]
    rw [← hsecrets]
    exact congrArg (Option.bind · _) hold
  have hacts : ∃ m, m.deed = Deed.replace deviceId old newEnvelope ∧
      Acts D nowNs s t caller approval m :=
    acts_of hview hissuer hsame.symm
      (fun id hmem => .inl ((List.mem_singleton.1 hmem).trans hsame.symm)) (P256.verifyTranscript_ok (ok_of_mapError hverified)) hconsume
      (by rw [ht])
  obtain ⟨m, hm, hacts⟩ := hacts
  exact ⟨m, hm ▸ hdeed, hacts⟩

theorem acts_setDeviceApprovalPolicy {require : Bool} {approval : SignedApproval}
    (h : (setDeviceApprovalPolicy D nowNs caller require approval).exec s = .ok (.ok (), t)) :
    ∃ m, m.deed = .setDeviceApprovalPolicy approval.issuerDeviceId require ∧
      Acts D nowNs s t caller approval m := by
  unfold setDeviceApprovalPolicy at h
  obtain ⟨_, _, hdemand, hcharge⟩ := bind_ok_iff.1 h
  obtain ⟨-, rfl⟩ := demand_ok_iff.1 hdemand
  obtain ⟨_, u, hcharged, hcheck⟩ := bind_ok_iff.1 hcharge
  have hview := (signing_chargeRevocationRate _ _ _ _ hcharged).1
  obtain ⟨found, _, hissuer, hverify⟩ := bind_ok_iff.1 hcheck
  obtain rfl := readOnly_checkIssuer _ _ _ _ _ hissuer
  obtain ⟨_, _, hverified, hnonce⟩ := bind_ok_iff.1 hverify
  obtain rfl := readOnly_lift _ _ _ _ hverified
  obtain ⟨_, v, hconsume, hwrite⟩ := bind_ok_iff.1 hnonce
  obtain rfl := write_ok_iff.1 hwrite
  exact acts_of hview hissuer rfl (fun _ hid => .inl (List.mem_singleton.1 hid))
    (verifySigned_ok hverified) hconsume rfl

theorem acts_authorizeReBootstrap {target : PrincipalBytes} {approval : SignedApproval}
    (h : (authorizeReBootstrap D nowNs caller target approval).exec s = .ok (.ok (), t)) :
    ∃ m, m.deed = .authorizeReBootstrap approval.issuerDeviceId ∧
      Acts D nowNs s t caller approval m := by
  unfold authorizeReBootstrap at h
  obtain ⟨_, _, hdemand, hscoped⟩ := bind_ok_iff.1 h
  obtain ⟨-, rfl⟩ := demand_ok_iff.1 hdemand
  obtain ⟨_, _, hsame, hcharge⟩ := bind_ok_iff.1 hscoped
  obtain ⟨rfl, rfl⟩ := demand_ok_iff.1 hsame
  obtain ⟨_, u, hcharged, hcheck⟩ := bind_ok_iff.1 hcharge
  have hview := (signing_chargeRevocationRate _ _ _ _ hcharged).1
  obtain ⟨found, _, hissuer, hverify⟩ := bind_ok_iff.1 hcheck
  obtain rfl := readOnly_checkIssuer _ _ _ _ _ hissuer
  obtain ⟨_, _, hverified, hnonce⟩ := bind_ok_iff.1 hverify
  obtain rfl := readOnly_lift _ _ _ _ hverified
  obtain ⟨_, v, hconsume, hwrite⟩ := bind_ok_iff.1 hnonce
  obtain rfl := write_ok_iff.1 hwrite
  exact acts_of hview hissuer rfl (fun _ hid => .inl (List.mem_singleton.1 hid))
    (verifySigned_ok hverified) hconsume rfl

theorem answered_done {x : Endpoint Unit} {r : Except VetkeysError Unit}
    (h : answered x .done s = .reply t (.done r)) : x.exec s = .ok (r, t) := by
  unfold answered at h
  cases hr : x.exec s with
  | error e => rw [hr] at h; exact nomatch h
  | ok p =>
    rw [hr] at h
    cases h
    rfl

variable {i : Input} {signed : SignedApproval} {kind : RateWindow}

/-- A signed operation that succeeds does what was signed for. -/
theorem start_acts (hi : i.approval = some (caller, signed, kind))
    (h : start D nowNs i s = .reply t (.done (.ok ()))) :
    ∃ m, i.deed s = some m.deed ∧ Acts D nowNs s t caller signed m := by
  cases i with
  | getEncryptedVetkey _ _ _ => exact nomatch hi
  | requestDeviceApprovalPolicyClear _ => exact nomatch hi
  | registerDevice caller' args =>
    cases happroval : args.approval with
    | bootstrap =>
      rw [Input.approval, happroval] at hi
      exact nomatch hi
    | device signed' =>
      rw [Input.approval, happroval] at hi
      cases hi
      obtain ⟨m, hm, hacts⟩ := acts_registerDevice happroval (answered_done h)
      exact ⟨m, by rw [Input.deed, happroval, hm], hacts⟩
  | revokeDevice caller' deviceId approval =>
    cases hi
    obtain ⟨m, hm, hacts⟩ := acts_revokeDevice (answered_done h)
    exact ⟨m, by rw [Input.deed, hm], hacts⟩
  | replaceEnvelope caller' deviceId newEnvelope approval =>
    cases hi
    exact acts_replaceEnvelope (answered_done h)
  | setDeviceApprovalPolicy caller' require approval =>
    cases hi
    obtain ⟨m, hm, hacts⟩ := acts_setDeviceApprovalPolicy (answered_done h)
    exact ⟨m, by rw [Input.deed, hm], hacts⟩
  | authorizeReBootstrap caller' target approval =>
    cases hi
    obtain ⟨m, hm, hacts⟩ := acts_authorizeReBootstrap (answered_done h)
    exact ⟨m, by rw [Input.deed, hm], hacts⟩

/-- A signed operation that is refused has charged its window and forgotten expired nonces. -/
theorem start_refused {e : VetkeysError} (hi : i.approval = some (caller, signed, kind))
    (h : start D nowNs i s = .reply t (.done (.error e))) :
    Tidied kind (PrincipalKey.new caller) nowNs s t := by
  cases i with
  | getEncryptedVetkey _ _ _ => exact nomatch hi
  | requestDeviceApprovalPolicyClear _ => exact nomatch hi
  | registerDevice caller' args =>
    cases happroval : args.approval with
    | bootstrap =>
      rw [Input.approval, happroval] at hi
      exact nomatch hi
    | device signed' =>
      rw [Input.approval, happroval] at hi
      cases hi
      exact refuses_registerDevice _ s e t (answered_done h)
  | revokeDevice caller' deviceId approval =>
    cases hi
    exact refuses_revokeDevice _ _ s e t (answered_done h)
  | replaceEnvelope caller' deviceId newEnvelope approval =>
    cases hi
    exact refuses_replaceEnvelope _ _ _ s e t (answered_done h)
  | setDeviceApprovalPolicy caller' require approval =>
    cases hi
    exact refuses_setDeviceApprovalPolicy _ _ s e t (answered_done h)
  | authorizeReBootstrap caller' target approval =>
    cases hi
    exact refuses_authorizeReBootstrap _ _ s e t (answered_done h)

end Acts

/-! ### Runs -/

section Runs
variable {w w' v : VetkeysWorld} {e : Event Input Reply} {b : Timed Bytes Nat}

/-- A reply leaves the nonces alone. -/
theorem resume_nonces {k : VetkeysTask} {r : Reply} (h : (resume D nowNs k r s).state? = some t) :
    t.consumedNonces = s.consumedNonces := by
  cases k with
  | eligibility caller transportKey admitted =>
    exact congrArg OwnerView.consumedNonces (eligibilityAnswered_view h)
  | derive caller admitted =>
    rcases deriveAnswered_view h with hview | ⟨-, hview⟩
    · exact congrArg OwnerView.consumedNonces hview
    · exact congrArg OwnerView.consumedNonces hview

theorem call_nonces {i : Input} (hs : NoncesExact w.state)
    (hl : Lands anyCallees w (start D w.now i w.state) w') :
    NoncesFrom w.now w.state.consumedNonces w'.state := by
  by_cases hi : ∃ caller transportKey live, i = .getEncryptedVetkey caller transportKey live
  · obtain ⟨caller, transportKey, live, rfl⟩ := hi
    have hsame : w'.state.consumedNonces = w.state.consumedNonces :=
      congrArg OwnerView.consumedNonces (getEncryptedVetkey_view hl.state)
    exact ⟨by rw [NoncesExact, hsame]; exact hs, by rw [hsame]; exact kept_refl _ _⟩
  · obtain ⟨t, a, hstart, hfrom⟩ : ∃ t a, start D w.now i w.state = .reply t a ∧
        NoncesFrom w.now w.state.consumedNonces t :=
      start_safe hs fun caller transportKey live heq => hi ⟨caller, transportKey, live, heq⟩
    rw [hstart] at hl
    rw [hl.of_reply]
    exact hfrom

theorem run_now {ok : VetkeysWorld → Event Input Reply → Prop}
    (run : ((system D).startedIn w).RunIf ok v) : w.now ≤ v.now :=
  run.invariant (I := fun v => w.now ≤ v.now) (fun _ hv => Nat.le_of_eq (congrArg World.now hv).symm)
    fun _ _ _ _ h _ (hstep : (canister D).Step anyCallees _ _ _) => Nat.le_trans h (step_now hstep)

/-- A step keeps the nonces and their index in correspondence, and forgets only expired ones. -/
theorem step_nonces (hs : NoncesExact w.state) (hstep : (canister D).Step anyCallees w e w') :
    NoncesFrom w.now w.state.consumedNonces w'.state := by
  have same : ∀ t : VetkeysState, t.consumedNonces = w.state.consumedNonces →
      NoncesFrom w.now w.state.consumedNonces t := fun t ht =>
    ⟨by rw [NoncesExact, ht]; exact hs, by rw [ht]; exact kept_refl _ _⟩
  cases hstep with
  | call hl => exact call_nonces hs hl
  | reply _ _ hl => exact same _ (resume_nonces hl.state)
  | upgrade h =>
    cases h
    exact same _ rfl
  | others h =>
    obtain ⟨token, htoken⟩ := h
    rw [setTokenCanister_eq htoken]
    exact same _ rfl
  | callTrap | replyTrap | wait | elsewhere => exact same _ rfl

theorem noncesExact_installed (h : Installed w) : NoncesExact w.state := by
  obtain ⟨token, hstate⟩ := h.state_eq
  rw [hstate]
  exact Timed.exact_empty

/-- The nonces and their index correspond throughout every run. -/
theorem run_nonces (run : (system D).Reachable w) : NoncesExact w.state :=
  run.invariant (fun _ h => noncesExact_installed h)
    fun w e w' _ h _ (hstep : (canister D).Step anyCallees w e w') => (step_nonces h hstep).1

/-- Until its expiry has passed, a nonce that has been used stays so. -/
theorem run_spent {ok : VetkeysWorld → Event Input Reply → Prop} {k : Bytes} {x : Nat}
    (hs : NoncesExact w.state) (hk : w.state.consumedNonces.rows[k]? = some x)
    (run : ((system D).startedIn w).RunIf ok v) :
    NoncesExact v.state ∧ (v.state.consumedNonces.rows[k]? = some x ∨ x < v.now) := by
  refine run.invariant
    (I := fun v => NoncesExact v.state ∧ (v.state.consumedNonces.rows[k]? = some x ∨ x < v.now))
    (fun v hv => ?_) fun v e v' _ h _ (hstep : (canister D).Step anyCallees v e v') => ?_
  · cases hv
    exact ⟨hs, .inl hk⟩
  · obtain ⟨hexact, hspent⟩ := h
    obtain ⟨hexact', hkept⟩ := step_nonces hexact hstep
    have hnow : ∀ x, x < v.now → x < v'.now := fun x hx => Nat.lt_of_lt_of_le hx (step_now hstep)
    refine ⟨hexact', ?_⟩
    rcases hspent with hrow | hexpired
    · exact (hkept k x hrow).imp id (hnow x)
    · exact .inr (hnow x hexpired)

end Runs

/-! ### Once, and as signed -/

/-- The expiry of a call's approval is a number of 64 bits, as its type has it. -/
def Typed (_ : VetkeysWorld) : Event Input Reply → Prop
  | .call i => ∀ a ∈ i.approval, a.2.1.expiryNs < 2 ^ 64
  | _ => True

instance (w : VetkeysWorld) : (e : Event Input Reply) → Decidable (Typed w e)
  | .call i => inferInstanceAs (Decidable (∀ a ∈ i.approval, a.2.1.expiryNs < 2 ^ 64))
  | .reply _ _ | .upgrade | .wait | .elsewhere | .others => isTrue trivial

/-- A signed operation that succeeds, on the statement `m`. -/
structure Served (D : Deployment) (nowNs : Nat) (s t : VetkeysState) (i : Input) (m : Statement) :
    Prop where
  answered : start D nowNs i s = .reply t (.done (.ok ()))
  deed : i.deed s = some m.deed
  acts : ∃ caller signed kind, i.approval = some (caller, signed, kind) ∧
    Acts D nowNs s t caller signed m

/-- What is kept of signed approvals, in a world that has been reached. -/
structure ApprovalsKept (D : Deployment) (w : VetkeysWorld) : Prop where
  /-- The nonces and the index of their expiries correspond. -/
  exact : NoncesExact w.state
  /-- No operation on devices traps. -/
  answers : ∀ i, (∀ caller transportKey live, i ≠ .getEncryptedVetkey caller transportKey live) →
    ∃ t a, start D w.now i w.state = .reply t a
  /-- An operation that succeeds is the one that was signed for. -/
  served : ∀ i caller signed kind t, i.approval = some (caller, signed, kind) →
    start D w.now i w.state = .reply t (.done (.ok ())) → ∃ m, Served D w.now w.state t i m
  /-- What has been signed serves once. -/
  once : ∀ i m t v i' m' t', Typed w (.call i) → Served D w.now w.state t i m →
    ((system D).startedIn {w with state := t}).RunIf Typed v → Typed v (.call i') →
    Served D v.now v.state t' i' m' → m'.transcript D.sha256 ≠ m.transcript D.sha256
  /-- A nonce is forgotten after its expiry, and from then on nothing with that expiry serves. -/
  forgets : ∀ e w' (k : Bytes) (x : Nat), (system D).step w e w' →
    w.state.consumedNonces.rows[k]? = some x → w'.state.consumedNonces.rows[k]? ≠ some x →
    x < w.now ∧ ∀ v i m t, ((system D).startedIn w').Reachable v →
      Served D v.now v.state t i m → m.expiryNs ≠ x
  /-- A refusal has charged its window and forgotten expired nonces. -/
  refused : ∀ i caller signed kind t e, i.approval = some (caller, signed, kind) →
    start D w.now i w.state = .reply t (.done (.error e)) →
    Tidied kind (PrincipalKey.new caller) w.now w.state t

section Once
variable {w v : VetkeysWorld} {i i' : Input} {m m' : Statement} {t' : VetkeysState}

theorem Served.expiry_lt (h : Served D nowNs s t i m) (hi : Typed w (.call i)) : m.expiryNs < 2 ^ 64 := by
  obtain ⟨caller, signed, kind, happroval, hacts⟩ := h.acts
  exact hacts.expiry ▸ hi _ happroval

/-- What an operation that succeeded was signed for has ids of a length that can be told. -/
theorem Served.fits (h : Served D nowNs s t i m) (hi : Typed w (.call i)) :
    (m.digest D.sha256).Fits := by
  refine ⟨fun id hid => ?_, h.expiry_lt hi⟩
  obtain ⟨_, _, _, -, hacts⟩ := h.acts
  rw [Statement.digest, Deed.ids_map] at hid
  exact Nat.lt_of_le_of_lt (hacts.ids id hid) (by decide)

/-- Two operations on one transcript are of one statement, up to what is hashed. -/
theorem Served.digest_eq (h : Served D w.now s t i m) (h' : Served D v.now u t' i' m')
    (hi : Typed w (.call i)) (hi' : Typed v (.call i'))
    (heq : m'.transcript D.sha256 = m.transcript D.sha256) :
    m'.digest D.sha256 = m.digest D.sha256 := by
  rw [Statement.transcript_eq, Statement.transcript_eq] at heq
  exact Transcript.encode_inj (h'.fits hi') (h.fits hi) heq

theorem Deed.issuerId_map {η θ : Type} (f : η → θ) (d : Deed η) : (d.map f).issuerId = d.issuerId := by
  cases d <;> rfl

/-- A transcript that has served finds its nonce used, or has expired. -/
theorem served_once (hs : NoncesExact w.state) (hi : Typed w (.call i))
    (h : Served D w.now w.state t i m)
    (run : ((system D).startedIn {w with state := t}).RunIf Typed v) (hi' : Typed v (.call i'))
    (h' : Served D v.now v.state t' i' m') : m'.transcript D.sha256 ≠ m.transcript D.sha256 := by
  intro heq
  have hdigest := h.digest_eq h' hi hi' heq
  have hprincipal : m'.principal = m.principal := congrArg Transcript.principal hdigest
  have hnonce : m'.nonce = m.nonce := congrArg Transcript.nonce hdigest
  have hexpiry : m'.expiryNs = m.expiryNs := congrArg Transcript.expiryNs hdigest
  have hissuer : m'.deed.issuerId = m.deed.issuerId := by
    have hmap := congrArg (fun t => Deed.issuerId (Transcript.deed t)) hdigest
    simpa only [Statement.digest, Deed.issuerId_map] using hmap
  obtain ⟨caller, signed, kind, -, hacts⟩ := h.acts
  obtain ⟨caller', signed', kind', -, hacts'⟩ := h'.acts
  obtain ⟨issuerKey, _, hid, -, -, -, -, hspent⟩ := hacts.issued
  obtain ⟨issuerKey', _, hid', -, -, -, hunused, -⟩ := hacts'.issued
  obtain rfl : caller' = caller := hacts'.principal.symm.trans (hprincipal.trans hacts.principal)
  rw [hissuer] at hid'
  obtain rfl := Option.some.inj (hid'.symm.trans hid)
  rw [hnonce] at hunused
  have hstart : NoncesExact t := by
    have hstep : (canister D).Step anyCallees w (.call i) {w with state := t} :=
      .call (by rw [show (canister D).start w.now i w.state = _ from h.answered]; exact .reply)
    exact (step_nonces hs hstep).1
  have hlive := hacts'.live
  rcases (run_spent (w := {w with state := t}) hstart hspent run).2 with hrow | hexpired
  · have hgone := hunused _ hrow
    omega
  · omega

end Once

/-- Signed approvals serve once and only as signed, in every run: with any calls in any order, any
signatures and fields used again, any clock that does not go back, and upgrades. -/
theorem approvals_serve_once {w : VetkeysWorld} (run : (system D).RunIf Typed w) :
    ApprovalsKept D w ∧
      (∀ m : Statement, m.transcript D.sha256 = (m.digest D.sha256).encode) ∧
      ∀ x y : Transcript, x.Fits → y.Fits → x.encode = y.encode → x = y := by
  have hs : NoncesExact w.state := run_nonces (run.mono fun _ _ _ => trivial)
  refine ⟨⟨hs, fun i hi => ?_, fun i caller signed kind t hi h => ?_,
    fun i m t v i' m' t' hi h run' hi' h' => served_once hs hi h run' hi' h',
    fun e w' k x hstep hk hgone => ?_, fun i caller signed kind t e hi h => start_refused hi h⟩,
    Statement.transcript_eq D.sha256, fun x y hx hy h => Transcript.encode_inj hx hy h⟩
  · obtain ⟨t, a, hstart, -⟩ := start_safe hs hi
    exact ⟨t, a, hstart⟩
  · obtain ⟨m, hdeed, hacts⟩ := start_acts hi h
    exact ⟨m, h, hdeed, caller, signed, kind, hi, hacts⟩
  · have hexpired : x < w.now := ((step_nonces hs hstep).2 k x hk).resolve_left hgone
    refine ⟨hexpired, fun v i m t run' h' heq => ?_⟩
    have hnow : w'.now ≤ v.now := run_now run'
    obtain ⟨_, _, _, -, hacts⟩ := h'.acts
    have hlive := hacts.live
    have hle := step_now hstep
    omega

/-- How many nonces an operation that succeeds leaves. -/
def approvalReport (o : VetkeysOutcome) : Option Nat :=
  match o with
  | .reply t (.done (.ok ())) => some t.consumedNonces.rows.size
  | _ => none

theorem approvals_serve_sample : ∃ (w : VetkeysWorld) (t : VetkeysState),
    start enrolDeployment w.now (.registerDevice sampleCaller secondDevice) w.state =
      .reply t (.done (.ok ())) ∧ ApprovalsKept enrolDeployment w := by
  have hplayed : ((anyPlayer.run (canister enrolDeployment) (fun w e => decide (Typed w e))
      sampleWorld enrolMoves).bind fun w =>
        approvalReport (start enrolDeployment w.now (.registerDevice sampleCaller secondDevice)
          w.state)) = some 1 := by
    decide +kernel
  obtain ⟨w, hw, hreport⟩ := Option.bind_eq_some_iff.1 hplayed
  have run : (system enrolDeployment).RunIf Typed w :=
    Player.run_runIf (fun _ _ h => of_decide_eq_true h) (.start sampleWorld_installed) hw
  unfold approvalReport at hreport
  split at hreport
  · next t hstart => exact ⟨w, t, hstart, (approvals_serve_once run).1⟩
  · exact nomatch hreport

end StshProtocol.Vetkeys
