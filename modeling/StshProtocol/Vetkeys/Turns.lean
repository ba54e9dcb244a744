import StshProtocol.Vetkeys.Owners
import StshProtocol.Vetkeys.Statements
import StshProtocol.Vetkeys.Quiet

/-! What the messages of devices come to.

A message either leaves the devices, the tickets and the policies alone, or does the one thing
its name says, and then it was asked for by an active device's signature or, for an enrolment, by
a ticket (`start_turn`). -/
namespace StshProtocol.Vetkeys
open Foundation ShieldedPool Vesting Handler

/-- The devices, what may enrol them, and what has. -/
structure DeviceView where
  devices : StableMap Bytes DeviceRecord
  wrappedSecrets : StableMap Bytes Bytes
  bootstrapTickets : StableMap PrincipalKey BootstrapTicket
  reBootstrapPolicy : StableMap PrincipalKey RebootstrapPolicyV1
  deviceApprovalPolicy : StableMap PrincipalKey DeviceApprovalPolicyV1
  marks : List Mark

def VetkeysState.deviceView (s : VetkeysState) : DeviceView where
  devices := s.devices
  wrappedSecrets := s.wrappedSecrets
  bootstrapTickets := s.bootstrapTickets
  reBootstrapPolicy := s.reBootstrapPolicy
  deviceApprovalPolicy := s.deviceApprovalPolicy
  marks := s.marks

/-- All that belongs to the owners of devices: besides, the nonces they have used and the windows
of their rates. -/
structure OwnerView where
  device : DeviceView
  consumedNonces : Timed Bytes Nat
  registrations : StableMap PrincipalKey RegistrationWindow
  replacements : StableMap PrincipalKey RegistrationWindow
  revocationRate : StableMap PrincipalKey RegistrationWindow

def VetkeysState.ownerView (s : VetkeysState) : OwnerView where
  device := s.deviceView
  consumedNonces := s.consumedNonces
  registrations := s.registrations
  replacements := s.replacements
  revocationRate := s.revocationRate

/-- A signature over the statement verifies. -/
def Verified (D : Deployment) (spki : Bytes) (m : Statement) : Prop :=
  ∃ signature, D.p256.verifies spki (m.transcript D.sha256) signature = true

/-- An active device of the caller has signed for the operation. -/
structure SignedFor (D : Deployment) (Signs : Bytes → Statement → Prop) (s : VetkeysState)
    (caller : PrincipalBytes) (issuerKey : DeviceIdKey) (issuer : DeviceRecord) (deed : Deed Bytes) :
    Prop where
  row : s.devices[deviceKey (PrincipalKey.new caller) issuerKey]? = some issuer
  active : issuer.status = .active
  signed : ∃ nonce expiryNs, Signs issuer.signPubkeySpki ⟨D.self, caller, deed, nonce, expiryNs⟩

/-- What approves an enrolment, and what is left of the tickets and the policies. -/
inductive Approves (D : Deployment) (nowNs : Nat) (s : VetkeysState) (caller : PrincipalBytes)
    (args : RegisterArgs) : ApprovedBy → DeviceView → Prop
  | ticket {ticket : BootstrapTicket}
      (hopen : s.bootstrapPathOpen (PrincipalKey.new caller) nowNs = true)
      (hticket : checkConsumable s.bootstrapTickets[PrincipalKey.new caller]? nowNs = .ok ticket) :
      Approves D nowNs s caller args .bootstrap {s.deviceView with
        bootstrapTickets := s.bootstrapTickets.insert (PrincipalKey.new caller) ticket.consume
        reBootstrapPolicy := s.reBootstrapPolicy.erase (PrincipalKey.new caller)}
  | device {issuerId issuerKey : Bytes} {issuer : DeviceRecord}
      (hid : DeviceIdKey.new issuerId = some issuerKey)
      (hsigned : SignedFor D (Verified D) s caller issuerKey issuer
        (.register issuerId args.deviceId args.encPubkeySpki args.signPubkeySpki args.wrappedSecret)) :
      Approves D nowNs s caller args (.device issuerKey) s.deviceView

/-- What a device message does, where it does not leave everything alone. -/
inductive Turn (D : Deployment) (nowNs : Nat) (s s' : VetkeysState) : Input → Prop
  | enrolled {caller : PrincipalBytes} {args : RegisterArgs} {d : DeviceIdKey}
      {approvedBy : ApprovedBy} {v : DeviceView} (hid : DeviceIdKey.new args.deviceId = some d)
      (hnew : s.devices[deviceKey (PrincipalKey.new caller) d]? = none)
      (happroves : Approves D nowNs s caller args approvedBy v)
      (h : s'.deviceView = {v with
        devices := s.devices.insert (deviceKey (PrincipalKey.new caller) d)
          (args.record nowNs approvedBy)
        wrappedSecrets := s.wrappedSecrets.insert (deviceKey (PrincipalKey.new caller) d)
          args.wrappedSecret
        marks := .enrolled (PrincipalKey.new caller) (deviceKey (PrincipalKey.new caller) d)
          approvedBy :: s.marks}) :
      Turn D nowNs s s' (.registerDevice caller args)
  | revoked {caller : PrincipalBytes} {deviceId k : Bytes} {approval : SignedApproval}
      {record : DeviceRecord} (hrow : s.devices[k]? = some record) (hactive : record.status = .active)
      (h : s'.deviceView = {s.deviceView with
        devices := s.devices.insert k {record with status := .revoked, revokedAtNs := some nowNs}
        wrappedSecrets := s.wrappedSecrets.erase k}) :
      Turn D nowNs s s' (.revokeDevice caller deviceId approval)
  | replaced {caller : PrincipalBytes} {deviceId newEnvelope k old : Bytes}
      {approval : SignedApproval} (hold : s.wrappedSecrets[k]? = some old)
      (h : s'.deviceView =
        {s.deviceView with wrappedSecrets := s.wrappedSecrets.insert k newEnvelope}) :
      Turn D nowNs s s' (.replaceEnvelope caller deviceId newEnvelope approval)
  | policySet {caller : PrincipalBytes} {require : Bool} {approval : SignedApproval}
      (h : s'.deviceView = {s.deviceView with deviceApprovalPolicy := s'.deviceApprovalPolicy}) :
      Turn D nowNs s s' (.setDeviceApprovalPolicy caller require approval)
  | clearRequested {caller : PrincipalBytes}
      (h : s'.deviceView = {s.deviceView with deviceApprovalPolicy := s'.deviceApprovalPolicy}) :
      Turn D nowNs s s' (.requestDeviceApprovalPolicyClear caller)
  | authorized {caller : PrincipalBytes} {approval : SignedApproval} {issuerKey : DeviceIdKey}
      {issuer : DeviceRecord} (hid : DeviceIdKey.new approval.issuerDeviceId = some issuerKey)
      (hsigned : SignedFor D (Verified D) s caller issuerKey issuer
        (.authorizeReBootstrap approval.issuerDeviceId))
      (h : s'.deviceView = {s.deviceView with
        reBootstrapPolicy :=
          s.reBootstrapPolicy.insert (PrincipalKey.new caller) ⟨true, some issuerKey, nowNs⟩
        marks := .authorized (PrincipalKey.new caller) issuerKey issuer :: s.marks}) :
      Turn D nowNs s s' (.authorizeReBootstrap caller caller approval)

variable {D : Deployment} {nowNs : Nat} {s t u : VetkeysState} {caller : PrincipalBytes}

/-! ### The parts of a message -/

/-- The view is kept, whatever is answered. -/
abbrev Still {α : Type} (x : Endpoint α) : Prop := Quiet VetkeysState.deviceView (fun _ => True) x

theorem still_demand (p : Prop) [Decidable p] (e : VetkeysError) : Still (demand p e) :=
  quiet_demand p trivial

theorem still_lift {α : Type} (r : Except VetkeysError α) : Still (lift r) :=
  quiet_lift fun _ _ => trivial

theorem still_consumeNonce (owner : PrincipalKey) (issuer : DeviceIdKey) (nonce : Nonce16)
    (expiryNs : Nat) : Still (consumeNonce owner issuer nonce expiryNs nowNs) := by
  unfold consumeNonce
  refine Quiet.bind (quiet_read _) fun _ => Quiet.bind (quiet_expect _ _) fun _ => ?_
  refine Quiet.bind (quiet_write fun _ => rfl) fun _ => Quiet.bind (still_demand _ _) fun _ => ?_
  exact Quiet.bind (quiet_assert _ _) fun _ => quiet_write fun _ => rfl

theorem still_chargeRegistrations (owner : PrincipalKey) :
    Still (chargeRegistrations nowNs owner) := by
  unfold chargeRegistrations
  apply quiet_chargeRate
  exact fun _ _ => rfl

theorem still_chargeReplacements (owner : PrincipalKey) : Still (chargeReplacements nowNs owner) := by
  unfold chargeReplacements
  apply quiet_chargeRate
  exact fun _ _ => rfl

theorem still_chargeRevocationRate (owner : PrincipalKey) :
    Still (chargeRevocationRate nowNs owner) := by
  unfold chargeRevocationRate
  apply quiet_chargeRate
  exact fun _ _ => rfl

theorem readOnly_checkIssuer (owner : PrincipalKey) (signed : SignedApproval) :
    (checkIssuer owner signed nowNs).ReadOnly := by
  unfold checkIssuer
  refine ReadOnly.bind (readOnly_lift _) fun _ => ReadOnly.bind (readOnly_need _ _) fun _ => ?_
  refine ReadOnly.bind (readOnly_demand _ _) fun _ => ReadOnly.bind (readOnly_demand _ _) fun _ => ?_
  refine ReadOnly.bind (readOnly_read _) fun _ => ReadOnly.bind (readOnly_need _ _) fun _ => ?_
  exact ReadOnly.bind (readOnly_demand _ _) fun _ => readOnly_pure _

theorem readOnly_checkNewDevice (owner : PrincipalKey) (args : RegisterArgs) :
    (checkNewDevice owner args).ReadOnly := by
  unfold checkNewDevice
  refine ReadOnly.bind (readOnly_lift _) fun _ => ReadOnly.bind (readOnly_demand _ _) fun _ => ?_
  refine ReadOnly.bind (readOnly_demand _ _) fun _ => ReadOnly.bind (readOnly_demand _ _) fun _ => ?_
  refine ReadOnly.bind (readOnly_demand _ _) fun _ => ReadOnly.bind (readOnly_read _) fun _ => ?_
  refine ReadOnly.bind (readOnly_demand _ _) fun _ => ReadOnly.bind (readOnly_read _) fun _ => ?_
  exact ReadOnly.bind (readOnly_demand _ _) fun _ => readOnly_pure _

theorem ok_of_mapError {α ε' : Type} {r : Except ε' α} {f : ε' → VetkeysError} {a : α}
    (h : r.mapError f = .ok a) : r = .ok a := by
  cases r with
  | error e => exact nomatch h
  | ok b => exact congrArg _ (Except.ok.inj h)

theorem deviceIdKey_ok {id d : Bytes} (h : deviceIdKey id = .ok d) : DeviceIdKey.new id = some d := by
  unfold deviceIdKey at h
  cases hid : DeviceIdKey.new id with
  | none =>
    rw [hid] at h
    exact nomatch h
  | some d' =>
    rw [hid] at h
    exact congrArg _ (Except.ok.inj h)

/-- A device passes for the issuer if it is registered and active. -/
theorem checkIssuer_ok {owner : PrincipalKey} {signed : SignedApproval}
    {found : DeviceIdKey × DeviceRecord × Nonce16}
    (h : (checkIssuer owner signed nowNs).exec s = .ok (.ok found, u)) :
    DeviceIdKey.new signed.issuerDeviceId = some found.1 ∧
      s.devices[deviceKey owner found.1]? = some found.2.1 ∧ found.2.1.status = .active := by
  unfold checkIssuer at h
  simp only [bind_ok_iff, pure_ok_iff, read_ok_iff, demand_ok_iff, need_ok_iff, lift_ok_iff] at h
  obtain ⟨_, _, ⟨hid, rfl⟩, _, _, ⟨_, rfl⟩, _, _, ⟨_, rfl⟩, _, _, ⟨_, rfl⟩, _, _, ⟨rfl, rfl⟩, _, _,
    ⟨hrow, rfl⟩, _, _, ⟨hactive, rfl⟩, rfl, rfl⟩ := h
  exact ⟨deviceIdKey_ok hid, hrow, hactive⟩

theorem verifySigned_ok {issuer : DeviceRecord} {transcript signature : Bytes}
    (h : (verifySigned D issuer transcript signature).exec s = .ok (.ok (), u)) :
    D.p256.verifies issuer.signPubkeySpki transcript signature = true := by
  unfold verifySigned at h
  exact P256.verifyTranscript_ok (ok_of_mapError (lift_ok_iff.1 h).1)

/-! ### The messages -/

/-- What only the view tells is the same in states of one view. -/
theorem bootstrapPathOpen_congr (h : u.deviceView = s.deviceView) (owner : PrincipalKey) :
    u.bootstrapPathOpen owner nowNs = s.bootstrapPathOpen owner nowNs := by
  cases u
  cases s
  simp only [VetkeysState.deviceView, DeviceView.mk.injEq] at h
  obtain ⟨rfl, -, -, rfl, rfl, -⟩ := h
  rfl

theorem checkNewDevice_ok {owner : PrincipalKey} {args : RegisterArgs} {k : Bytes}
    (h : (checkNewDevice owner args).exec s = .ok (.ok k, u)) :
    ∃ d, DeviceIdKey.new args.deviceId = some d ∧ k = deviceKey owner d ∧ s.devices[k]? = none := by
  unfold checkNewDevice at h
  simp only [bind_ok_iff, pure_ok_iff, read_ok_iff, demand_ok_iff, lift_ok_iff] at h
  obtain ⟨d, _, ⟨hid, rfl⟩, _, _, ⟨_, rfl⟩, _, _, ⟨_, rfl⟩, _, _, ⟨_, rfl⟩, _, _, ⟨_, rfl⟩, _, _,
    ⟨rfl, rfl⟩, _, _, ⟨hnew, rfl⟩, _, _, ⟨rfl, rfl⟩, _, _, ⟨_, rfl⟩, rfl, rfl⟩ := h
  exact ⟨d, deviceIdKey_ok hid, rfl, StableMap.not_contains_iff.1 hnew⟩

/-- A ticket that serves. -/
theorem consumeBootstrap_ends {args : RegisterArgs} {r : Except VetkeysError ApprovedBy}
    (h : (consumeBootstrap (PrincipalKey.new caller) nowNs).exec s = .ok (r, t)) :
    ((∃ e, r = .error e) ∧ t.deviceView = s.deviceView) ∨
      ∃ approvedBy, r = .ok approvedBy ∧ Approves D nowNs s caller args approvedBy t.deviceView := by
  unfold consumeBootstrap at h
  rw [exec_bind_ok (exec_read _)] at h
  rcases (still_demand _ _).peel h with hrefused | ⟨_, u, hx, -, hrest⟩
  · exact .inl hrefused
  obtain ⟨hopen, rfl⟩ := demand_ok_iff.1 hx
  rcases (still_lift _).peel hrest with hrefused | ⟨ticket, v, hx', -, hend⟩
  · exact .inl hrefused
  obtain ⟨hticket, rfl⟩ := lift_ok_iff.1 hx'
  rw [exec_bind_ok (exec_write _)] at hend
  cases hend
  exact .inr ⟨_, rfl, .ticket hopen (ok_of_mapError hticket)⟩

/-- A signature of an active device. -/
theorem approveBySignature_ends {args : RegisterArgs} {signed : SignedApproval}
    {r : Except VetkeysError ApprovedBy}
    (h : (approveBySignature D nowNs caller args signed).exec s = .ok (r, t)) :
    ((∃ e, r = .error e) ∧ t.deviceView = s.deviceView) ∨
      ∃ approvedBy, r = .ok approvedBy ∧ Approves D nowNs s caller args approvedBy t.deviceView := by
  unfold approveBySignature at h
  rcases (readOnly_checkIssuer _ _).bind_ends h with ⟨rfl, he⟩ | ⟨found, hissuer, hsig⟩
  · exact .inl ⟨he, rfl⟩
  obtain ⟨hid, hrow, hactive⟩ := checkIssuer_ok hissuer
  rcases (readOnly_lift _).bind_ends hsig with ⟨rfl, he⟩ | ⟨_, hverify, hnonce⟩
  · exact .inl ⟨he, rfl⟩
  have hsigned : SignedFor D (Verified D) s caller found.1 found.2.1
      (.register signed.issuerDeviceId args.deviceId args.encPubkeySpki args.signPubkeySpki
        args.wrappedSecret) :=
    ⟨hrow, hactive, found.2.2, signed.expiryNs, signed.signature, verifySigned_ok hverify⟩
  rcases (still_consumeNonce _ _ _ _).peel hnonce with hrefused | ⟨_, u, -, hv, hend⟩
  · exact .inl hrefused
  cases hend
  exact .inr ⟨_, rfl, hv ▸ .device hid hsigned⟩

theorem approve_ends {args : RegisterArgs} {r : Except VetkeysError ApprovedBy}
    (h : (approve D nowNs caller args).exec s = .ok (r, t)) :
    ((∃ e, r = .error e) ∧ t.deviceView = s.deviceView) ∨
      ∃ approvedBy, r = .ok approvedBy ∧ Approves D nowNs s caller args approvedBy t.deviceView := by
  unfold approve at h
  cases happroval : args.approval with
  | bootstrap =>
    rw [happroval] at h
    exact consumeBootstrap_ends h
  | device signed =>
    rw [happroval] at h
    exact approveBySignature_ends h

/-- What approves in one state approves in another of its view. -/
theorem Approves.congr {args : RegisterArgs} {approvedBy : ApprovedBy} {v : DeviceView}
    (hv : u.deviceView = s.deviceView) (h : Approves D nowNs u caller args approvedBy v) :
    Approves D nowNs s caller args approvedBy v := by
  have hdevices : u.devices = s.devices := congrArg DeviceView.devices hv
  have htickets : u.bootstrapTickets = s.bootstrapTickets := congrArg DeviceView.bootstrapTickets hv
  have hpolicy : u.reBootstrapPolicy = s.reBootstrapPolicy := congrArg DeviceView.reBootstrapPolicy hv
  cases h with
  | ticket hopen hticket =>
    rw [bootstrapPathOpen_congr hv] at hopen
    rw [htickets] at hticket
    rw [hv, htickets, hpolicy]
    exact .ticket hopen hticket
  | device hid hsigned =>
    rw [hv]
    exact .device hid ⟨hdevices ▸ hsigned.row, hsigned.active, hsigned.signed⟩

/-- Approving enrols nothing. -/
theorem Approves.kept {args : RegisterArgs} {approvedBy : ApprovedBy} {v : DeviceView}
    (h : Approves D nowNs s caller args approvedBy v) :
    v.devices = s.devices ∧ v.wrappedSecrets = s.wrappedSecrets ∧ v.marks = s.marks := by
  cases h with
  | ticket _ _ => exact ⟨rfl, rfl, rfl⟩
  | device _ _ => exact ⟨rfl, rfl, rfl⟩

theorem registerDevice_ends {args : RegisterArgs} {r : Except VetkeysError Unit}
    (h : (registerDevice D nowNs caller args).exec s = .ok (r, t)) :
    t.deviceView = s.deviceView ∨ Turn D nowNs s t (.registerDevice caller args) := by
  unfold registerDevice at h
  rcases (still_demand _ _).peel h with hrefused | ⟨_, u₁, -, hv₁, hcharge⟩
  · exact .inl hrefused.2
  rcases (still_chargeRegistrations _).peel hcharge with hrefused | ⟨_, u₂, -, hv₂, hcheck⟩
  · exact .inl (hrefused.2.trans hv₁)
  have hv : u₂.deviceView = s.deviceView := hv₂.trans hv₁
  rcases (readOnly_checkNewDevice _ _).bind_ends hcheck with ⟨rfl, -⟩ | ⟨k, hk, happrove⟩
  · exact .inl hv
  obtain ⟨d, hid, rfl, hnew⟩ := checkNewDevice_ok hk
  have hdevices : u₂.devices = s.devices := congrArg DeviceView.devices hv
  rw [hdevices] at hnew
  rw [exec_bind] at happrove
  match hr : (approve D nowNs caller args).exec u₂ with
  | .error _ =>
    rw [hr] at happrove
    cases happrove
  | .ok (.error e, v) =>
    rw [hr] at happrove
    cases happrove
    rcases approve_ends hr with hrefused | ⟨_, hok, _⟩
    · exact .inl (hrefused.2.trans hv)
    · exact nomatch hok
  | .ok (.ok approvedBy, v) =>
    rw [hr] at happrove
    cases happrove
    rcases approve_ends hr with ⟨⟨_, he⟩, _⟩ | ⟨_, hok, happroves⟩
    · exact nomatch he
    obtain rfl := Except.ok.inj hok
    have happroves := happroves.congr hv
    obtain ⟨hdevices, hsecrets, hmarks⟩ := happroves.kept
    refine .inr (.enrolled hid hnew happroves ?_)
    show ({v.deviceView with
      devices := v.deviceView.devices.insert _ _
      wrappedSecrets := v.deviceView.wrappedSecrets.insert _ _
      marks := _ :: v.deviceView.marks} : DeviceView) = _
    rw [hdevices, hsecrets, hmarks]

theorem revokeDevice_ends {deviceId : Bytes} {approval : SignedApproval}
    {r : Except VetkeysError Unit}
    (h : (revokeDevice D nowNs caller deviceId approval).exec s = .ok (r, t)) :
    t.deviceView = s.deviceView ∨ Turn D nowNs s t (.revokeDevice caller deviceId approval) := by
  unfold revokeDevice at h
  rcases (still_demand _ _).peel h with hrefused | ⟨_, u₁, -, hv₁, hcharge⟩
  · exact .inl hrefused.2
  rcases (still_chargeRevocationRate _).peel hcharge with hrefused | ⟨_, u₂, -, hv₂, htarget⟩
  · exact .inl (hrefused.2.trans hv₁)
  have hv : u₂.deviceView = s.deviceView := hv₂.trans hv₁
  rcases (readOnly_lift _).bind_ends htarget with ⟨rfl, -⟩ | ⟨target, -, hissuer⟩
  · exact .inl hv
  rcases (readOnly_checkIssuer _ _).bind_ends hissuer with ⟨rfl, -⟩ | ⟨found, -, hverify⟩
  · exact .inl hv
  rcases (readOnly_lift _).bind_ends hverify with ⟨rfl, -⟩ | ⟨_, -, hread⟩
  · exact .inl hv
  rw [exec_bind_ok (exec_read _)] at hread
  rcases (readOnly_need _ _).bind_ends hread with ⟨rfl, -⟩ | ⟨record, hneed, hdemand⟩
  · exact .inl hv
  rcases (readOnly_demand _ _).bind_ends hdemand with ⟨rfl, -⟩ | ⟨_, hactive, hnonce⟩
  · exact .inl hv
  rcases (still_consumeNonce _ _ _ _).peel hnonce with hrefused | ⟨_, u₃, -, hv₃, hend⟩
  · exact .inl (hrefused.2.trans hv)
  have hv' : u₃.deviceView = s.deviceView := hv₃.trans hv
  have hrow := (need_ok_iff.1 hneed).1
  rw [show u₂.devices = s.devices from congrArg DeviceView.devices hv] at hrow
  cases hend
  refine .inr (.revoked hrow (demand_ok_iff.1 hactive).1 ?_)
  show ({u₃.deviceView with
    devices := u₃.deviceView.devices.insert _ _
    wrappedSecrets := u₃.deviceView.wrappedSecrets.erase _} : DeviceView) = _
  rw [hv']
  rfl

theorem replaceEnvelope_ends {deviceId newEnvelope : Bytes} {approval : SignedApproval}
    {r : Except VetkeysError Unit}
    (h : (replaceEnvelope D nowNs caller deviceId newEnvelope approval).exec s = .ok (r, t)) :
    t.deviceView = s.deviceView ∨
      Turn D nowNs s t (.replaceEnvelope caller deviceId newEnvelope approval) := by
  unfold replaceEnvelope at h
  rcases (still_demand _ _).peel h with hrefused | ⟨_, u₁, -, hv₁, hcharge⟩
  · exact .inl hrefused.2
  rcases (still_chargeReplacements _).peel hcharge with hrefused | ⟨_, u₂, -, hv₂, hsubject⟩
  · exact .inl (hrefused.2.trans hv₁)
  have hv : u₂.deviceView = s.deviceView := hv₂.trans hv₁
  rcases (readOnly_lift _).bind_ends hsubject with ⟨rfl, -⟩ | ⟨subject, -, hfits⟩
  · exact .inl hv
  rcases (readOnly_demand _ _).bind_ends hfits with ⟨rfl, -⟩ | ⟨_, -, hown⟩
  · exact .inl hv
  rcases (readOnly_demand _ _).bind_ends hown with ⟨rfl, -⟩ | ⟨_, -, hissuer⟩
  · exact .inl hv
  rcases (readOnly_checkIssuer _ _).bind_ends hissuer with ⟨rfl, -⟩ | ⟨found, -, hread⟩
  · exact .inl hv
  rw [exec_bind_ok (exec_read _)] at hread
  rcases (readOnly_need _ _).bind_ends hread with ⟨rfl, -⟩ | ⟨old, hneed, hverify⟩
  · exact .inl hv
  rcases (readOnly_lift _).bind_ends hverify with ⟨rfl, -⟩ | ⟨_, -, hnonce⟩
  · exact .inl hv
  rcases (still_consumeNonce _ _ _ _).peel hnonce with hrefused | ⟨_, u₃, -, hv₃, hend⟩
  · exact .inl (hrefused.2.trans hv)
  have hv' : u₃.deviceView = s.deviceView := hv₃.trans hv
  have hold := (need_ok_iff.1 hneed).1
  rw [show u₂.wrappedSecrets = s.wrappedSecrets from congrArg DeviceView.wrappedSecrets hv] at hold
  cases hend
  refine .inr (.replaced hold ?_)
  show ({u₃.deviceView with
    wrappedSecrets := u₃.deviceView.wrappedSecrets.insert _ _} : DeviceView) = _
  rw [hv']
  rfl

theorem setDeviceApprovalPolicy_ends {require : Bool} {approval : SignedApproval}
    {r : Except VetkeysError Unit}
    (h : (setDeviceApprovalPolicy D nowNs caller require approval).exec s = .ok (r, t)) :
    t.deviceView = s.deviceView ∨
      Turn D nowNs s t (.setDeviceApprovalPolicy caller require approval) := by
  unfold setDeviceApprovalPolicy at h
  rcases (still_demand _ _).peel h with hrefused | ⟨_, u₁, -, hv₁, hcharge⟩
  · exact .inl hrefused.2
  rcases (still_chargeRevocationRate _).peel hcharge with hrefused | ⟨_, u₂, -, hv₂, hissuer⟩
  · exact .inl (hrefused.2.trans hv₁)
  have hv : u₂.deviceView = s.deviceView := hv₂.trans hv₁
  rcases (readOnly_checkIssuer _ _).bind_ends hissuer with ⟨rfl, -⟩ | ⟨found, -, hverify⟩
  · exact .inl hv
  rcases (readOnly_lift _).bind_ends hverify with ⟨rfl, -⟩ | ⟨_, -, hnonce⟩
  · exact .inl hv
  rcases (still_consumeNonce _ _ _ _).peel hnonce with hrefused | ⟨_, u₃, -, hv₃, hend⟩
  · exact .inl (hrefused.2.trans hv)
  cases hend
  refine .inr (.policySet ?_)
  rw [← hv₃.trans hv]
  rfl

theorem requestDeviceApprovalPolicyClear_ends {r : Except VetkeysError Nat}
    (h : (requestDeviceApprovalPolicyClear nowNs caller).exec s = .ok (r, t)) :
    t.deviceView = s.deviceView ∨ Turn D nowNs s t (.requestDeviceApprovalPolicyClear caller) := by
  unfold requestDeviceApprovalPolicyClear at h
  rcases (still_demand _ _).peel h with hrefused | ⟨_, u₁, -, hv₁, hcharge⟩
  · exact .inl hrefused.2
  rcases (still_chargeRevocationRate _).peel hcharge with hrefused | ⟨_, u₂, -, hv₂, hread⟩
  · exact .inl (hrefused.2.trans hv₁)
  have hv : u₂.deviceView = s.deviceView := hv₂.trans hv₁
  rw [exec_bind_ok (exec_read _)] at hread
  rcases (readOnly_need _ _).bind_ends hread with ⟨rfl, -⟩ | ⟨row, -, hend⟩
  · exact .inl hv
  cases hpending : row.pendingClearAtNs with
  | some existing =>
    rw [hpending] at hend
    cases hend
    exact .inl hv
  | none =>
    rw [hpending] at hend
    cases hend
    refine .inr (.clearRequested ?_)
    rw [← hv]
    rfl

theorem authorizeReBootstrap_ends {target : PrincipalBytes} {approval : SignedApproval}
    {r : Except VetkeysError Unit}
    (h : (authorizeReBootstrap D nowNs caller target approval).exec s = .ok (r, t)) :
    t.deviceView = s.deviceView ∨ Turn D nowNs s t (.authorizeReBootstrap caller target approval) := by
  unfold authorizeReBootstrap at h
  rcases (still_demand _ _).peel h with hrefused | ⟨_, u₁, -, hv₁, hscoped⟩
  · exact .inl hrefused.2
  rcases (readOnly_demand _ _).bind_ends hscoped with ⟨rfl, -⟩ | ⟨_, hsame, hcharge⟩
  · exact .inl hv₁
  obtain rfl := (demand_ok_iff.1 hsame).1
  rcases (still_chargeRevocationRate _).peel hcharge with hrefused | ⟨_, u₂, -, hv₂, hissuer⟩
  · exact .inl (hrefused.2.trans hv₁)
  have hv : u₂.deviceView = s.deviceView := hv₂.trans hv₁
  rcases (readOnly_checkIssuer _ _).bind_ends hissuer with ⟨rfl, -⟩ | ⟨found, hfound, hverify⟩
  · exact .inl hv
  obtain ⟨hid, hrow, hactive⟩ := checkIssuer_ok hfound
  rw [show u₂.devices = s.devices from congrArg DeviceView.devices hv] at hrow
  rcases (readOnly_lift _).bind_ends hverify with ⟨rfl, -⟩ | ⟨_, hverified, hnonce⟩
  · exact .inl hv
  rcases (still_consumeNonce _ _ _ _).peel hnonce with hrefused | ⟨_, u₃, -, hv₃, hend⟩
  · exact .inl (hrefused.2.trans hv)
  have hv' : u₃.deviceView = s.deviceView := hv₃.trans hv
  cases hend
  refine .inr (.authorized hid ⟨hrow, hactive, found.2.2, approval.expiryNs, approval.signature,
    verifySigned_ok hverified⟩ ?_)
  show ({u₃.deviceView with
    reBootstrapPolicy := u₃.deviceView.reBootstrapPolicy.insert _ _
    marks := _ :: u₃.deviceView.marks} : DeviceView) = _
  rw [hv']
  rfl

/-- A message that is answered has run to its end. -/
theorem answered_ends {α : Type} {x : Endpoint α} {f : Except VetkeysError α → Answer}
    (h : (answered x f s).state? = some t) : ∃ r, x.exec s = .ok (r, t) := by
  unfold answered at h
  cases hr : x.exec s with
  | error e => rw [hr] at h; exact nomatch h
  | ok p =>
    rw [hr] at h
    cases h
    exact ⟨p.1, rfl⟩

/-- What a message other than a derive does to the devices, the tickets and the policies. -/
theorem start_turn {i : Input} (h : (start D nowNs i s).state? = some t)
    (hi : ∀ caller transportKey live, i ≠ .getEncryptedVetkey caller transportKey live) :
    t.deviceView = s.deviceView ∨ Turn D nowNs s t i := by
  cases i with
  | getEncryptedVetkey caller transportKey live => exact absurd rfl (hi caller transportKey live)
  | registerDevice caller args =>
    obtain ⟨_, hexec⟩ := answered_ends h
    exact registerDevice_ends hexec
  | revokeDevice caller deviceId approval =>
    obtain ⟨_, hexec⟩ := answered_ends h
    exact revokeDevice_ends hexec
  | replaceEnvelope caller deviceId newEnvelope approval =>
    obtain ⟨_, hexec⟩ := answered_ends h
    exact replaceEnvelope_ends hexec
  | setDeviceApprovalPolicy caller require approval =>
    obtain ⟨_, hexec⟩ := answered_ends h
    exact setDeviceApprovalPolicy_ends hexec
  | requestDeviceApprovalPolicyClear caller =>
    obtain ⟨_, hexec⟩ := answered_ends h
    exact requestDeviceApprovalPolicyClear_ends hexec
  | authorizeReBootstrap caller target approval =>
    obtain ⟨_, hexec⟩ := answered_ends h
    exact authorizeReBootstrap_ends hexec

/-! ### The derives -/

section Derives
variable {who : PrincipalKey} {transportKey : Bytes} {admitted : Admitted} {live : Live}

theorem preflightCall_view (nowNs : Nat) (caller : PrincipalBytes) (s : VetkeysState) :
    (s.preflightCall nowNs caller).2.ownerView = s.ownerView := by
  simp only [VetkeysState.preflightCall]
  generalize preflight nowNs caller s.meter (s.admissionOf (PrincipalKey.new caller)) = out
  obtain ⟨r, meter, st⟩ := out
  cases r with
  | ok admitted => rfl
  | error e => cases e <;> rfl

theorem dispatchFence_view (nowNs : Nat) (who : PrincipalKey) (id : Nat) (firstDerive : Bool)
    (live : Live) (s : VetkeysState) :
    (s.dispatchFence nowNs who id firstDerive live).2.ownerView = s.ownerView := by
  unfold VetkeysState.dispatchFence
  cases resolveLiveCost live.liquid live.cost with
  | error e => rfl
  | ok liveCost =>
    simp only
    generalize fenceDecide nowNs id live.liquid liveCost (s.admissionOf who)
      s.globalDeriveBudgetWindow who = verdict
    cases verdict with
    | refuse e => rfl
    | commit =>
      simp only
      generalize (s.admissionOf who).revalidateForDispatch id = out
      cases out <;> rfl

theorem countRefusal_view (s : VetkeysState) (e : VetkeysError) :
    (s.countRefusal e).ownerView = s.ownerView := by
  cases e <;> rfl

theorem refuseReleasing_view {e : VetkeysError}
    (h : (refuseReleasing who admitted e s).state? = some t) : t.ownerView = s.ownerView := by
  cases h
  rfl

theorem dispatchDerive_view {firstDerive : Bool}
    (h : (dispatchDerive nowNs caller transportKey admitted firstDerive live s).state? = some t) :
    t.ownerView = s.ownerView := by
  unfold dispatchDerive at h
  have hview := dispatchFence_view nowNs (PrincipalKey.new caller) admitted.reservationId firstDerive
    live s
  cases hread : live.readRefused with
  | some reason =>
    rw [hread] at h
    exact refuseReleasing_view h
  | none =>
    rw [hread] at h
    simp only at h
    generalize s.dispatchFence nowNs (PrincipalKey.new caller) admitted.reservationId firstDerive
      live = out at h hview
    obtain ⟨r, s'⟩ := out
    cases r with
    | error e => exact ((refuseReleasing_view h).trans (countRefusal_view s' e)).trans hview
    | ok _ =>
      cases h
      exact hview

theorem deriveAdmitted_view
    (h : (deriveAdmitted nowNs caller transportKey admitted live s).state? = some t) :
    t.ownerView = s.ownerView := by
  unfold deriveAdmitted at h
  by_cases hestablished : s.established.contains (PrincipalKey.new caller)
  · rw [if_pos hestablished] at h
    exact dispatchDerive_view h
  · rw [if_neg hestablished] at h
    cases htoken : s.tokenCanister with
    | none =>
      rw [htoken] at h
      exact refuseReleasing_view h
    | some token =>
      rw [htoken] at h
      cases h
      rfl

theorem getEncryptedVetkey_view
    (h : (getEncryptedVetkey D nowNs caller transportKey live s).state? = some t) :
    t.ownerView = s.ownerView := by
  unfold getEncryptedVetkey at h
  cases hcheck : checkDerive D caller transportKey live with
  | error e =>
    rw [hcheck] at h
    cases h
    rfl
  | ok _ =>
    rw [hcheck] at h
    have hview := preflightCall_view nowNs caller s
    simp only at h
    generalize s.preflightCall nowNs caller = out at h hview
    obtain ⟨r, s'⟩ := out
    cases r with
    | error e =>
      cases h
      exact hview
    | ok admitted => exact (deriveAdmitted_view h).trans hview

theorem eligibilityDecided_view
    (h : (eligibilityDecided nowNs caller transportKey admitted live s).state? = some t) :
    t.ownerView = s.ownerView := by
  unfold eligibilityDecided at h
  simp only at h
  generalize Sightings.decide nowNs (PrincipalKey.new caller) s.eligibilitySightings = out at h
  cases out with
  | none => exact nomatch h
  | some out =>
    obtain ⟨outcome, table⟩ := out
    cases outcome with
    | admitted =>
      have hview := dispatchDerive_view h
      exact hview
    | inserted | renewed | notYet | anomalous =>
      have hview := refuseReleasing_view h
      exact hview

theorem eligibilityAnswered_view {r : Reply}
    (h : (eligibilityAnswered D nowNs caller transportKey admitted r s).state? = some t) :
    t.ownerView = s.ownerView := by
  unfold eligibilityAnswered at h
  cases hbody : r.body with
  | balance amount =>
    rw [hbody] at h
    simp only at h
    by_cases hfloor : amount < eligibilityMinBalanceE8s
    · rw [if_pos hfloor] at h
      exact refuseReleasing_view h
    · rw [if_neg hfloor] at h
      exact eligibilityDecided_view h
  | rejected e =>
    rw [hbody] at h
    exact refuseReleasing_view h
  | key k =>
    rw [hbody] at h
    exact refuseReleasing_view h

/-- A derive that is answered its key leaves a ticket, if the way of tickets is open. -/
theorem deriveAnswered_view {r : Reply}
    (h : (deriveAnswered nowNs caller admitted r s).state? = some t) :
    t.ownerView = s.ownerView ∨
      (∃ encryptedKey, deriveAnswered nowNs caller admitted r s =
        .reply t (.key (.ok ⟨encryptedKey, admitted.remaining⟩))) ∧
      t.ownerView = {s.ownerView with
        device := {s.deviceView with
          bootstrapTickets := s.bootstrapTickets.insert (PrincipalKey.new caller) (.mint nowNs)
          marks := .minted (PrincipalKey.new caller) nowNs :: s.marks}} := by
  unfold deriveAnswered at h ⊢
  cases hbody : r.body with
  | balance amount => rw [hbody] at h; exact nomatch h
  | rejected e => rw [hbody] at h; exact nomatch h
  | key encryptedKey =>
    rw [hbody] at h
    simp only at h ⊢
    generalize (s.admissionOf (PrincipalKey.new caller)).finalize nowNs admitted.reservationId = out
      at h ⊢
    obtain ⟨found, st⟩ := out
    cases found with
    | false =>
      cases h
      exact .inl rfl
    | true =>
      simp only at h ⊢
      have hmint : ((s.putAdmission (PrincipalKey.new caller) st).mintTicket nowNs
          (PrincipalKey.new caller)).ownerView = s.ownerView ∨
          ((s.putAdmission (PrincipalKey.new caller) st).mintTicket nowNs
            (PrincipalKey.new caller)).ownerView = {s.ownerView with
              device := {s.deviceView with
                bootstrapTickets := s.bootstrapTickets.insert (PrincipalKey.new caller) (.mint nowNs)
                marks := .minted (PrincipalKey.new caller) nowNs :: s.marks}} := by
        unfold VetkeysState.mintTicket
        split
        · exact .inr rfl
        · exact .inl rfl
      generalize (s.putAdmission (PrincipalKey.new caller) st).mintTicket nowNs
        (PrincipalKey.new caller) = s₁ at h hmint ⊢
      unfold VetkeysState.establish at h ⊢
      generalize Sightings.clearOnSuccess (PrincipalKey.new caller) s₁.eligibilitySightings = table
        at h ⊢
      cases table with
      | none => exact nomatch h
      | some table =>
        cases h
        exact hmint.imp id fun hview => ⟨⟨encryptedKey, rfl⟩, hview⟩

end Derives

end StshProtocol.Vetkeys
