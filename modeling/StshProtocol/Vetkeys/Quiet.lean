import StshProtocol.Vetkeys.Canister

/-! The device endpoints beside the derives: whatever they come to, they leave what the derives
keep as it was. -/
namespace StshProtocol.Vetkeys
open Foundation ShieldedPool Vesting Handler

/-- What the derives keep. -/
structure DeriveView where
  admission : StableMap PrincipalKey AdmissionState
  established : StableMap PrincipalKey Nat
  tokenCanister : Option PrincipalBytes
  globalDeriveBudgetWindow : GlobalDeriveWindow
  eligibilitySightings : Timed PrincipalKey Nat
  meter : MeterState
  stats : Stats
  history : History

def VetkeysState.deriveView (s : VetkeysState) : DeriveView where
  admission := s.admission
  established := s.established
  tokenCanister := s.tokenCanister
  globalDeriveBudgetWindow := s.globalDeriveBudgetWindow
  eligibilitySightings := s.eligibilitySightings
  meter := s.meter
  stats := s.stats
  history := s.history

/-- The derives' view is kept, whatever is answered. -/
abbrev Aside {α : Type} (x : Endpoint α) : Prop :=
  Quiet VetkeysState.deriveView (fun _ => True) x

variable {D : Deployment} {nowNs : Nat}

theorem aside_demand (p : Prop) [Decidable p] (e : VetkeysError) : Aside (demand p e) :=
  quiet_demand p trivial

theorem aside_need {α : Type} (o : Option α) (e : VetkeysError) : Aside (need o e) :=
  quiet_need o trivial

theorem aside_lift {α : Type} (r : Except VetkeysError α) : Aside (lift r) :=
  quiet_lift fun _ _ => trivial

theorem aside_consumeNonce (owner : PrincipalKey) (issuer : DeviceIdKey) (nonce : Nonce16)
    (expiryNs : Nat) : Aside (consumeNonce owner issuer nonce expiryNs nowNs) := by
  unfold consumeNonce
  refine Quiet.bind (quiet_read _) fun _ => Quiet.bind (quiet_expect _ _) fun _ => ?_
  refine Quiet.bind (quiet_write fun _ => rfl) fun _ => Quiet.bind (aside_demand _ _) fun _ => ?_
  exact Quiet.bind (quiet_assert _ _) fun _ => quiet_write fun _ => rfl

theorem aside_checkIssuer (owner : PrincipalKey) (signed : SignedApproval) :
    Aside (checkIssuer owner signed nowNs) := by
  unfold checkIssuer
  refine Quiet.bind (aside_lift _) fun _ => Quiet.bind (aside_need _ _) fun _ => ?_
  refine Quiet.bind (aside_demand _ _) fun _ => Quiet.bind (aside_demand _ _) fun _ => ?_
  refine Quiet.bind (quiet_read _) fun _ => Quiet.bind (aside_need _ _) fun _ => ?_
  exact Quiet.bind (aside_demand _ _) fun _ => quiet_pure _

/-- A charge keeps any view its window is no part of. -/
theorem quiet_chargeRate {π : Type} {view : VetkeysState → π}
    {get : VetkeysState → StableMap PrincipalKey RegistrationWindow}
    {set : StableMap PrincipalKey RegistrationWindow → VetkeysState → VetkeysState}
    (hset : ∀ m s, view (set m s) = view s)
    (charge : RegistrationWindow → Except Nat Unit × RegistrationWindow)
    (refusal : Nat → VetkeysError) (owner : PrincipalKey) :
    Quiet view (fun _ => True) (chargeRate get set charge refusal owner) := by
  unfold chargeRate
  refine Quiet.bind (quiet_read _) fun _ => Quiet.bind (quiet_write fun s => hset _ s) fun _ => ?_
  exact quiet_lift fun _ _ => trivial

theorem aside_chargeRegistrations (owner : PrincipalKey) :
    Aside (chargeRegistrations nowNs owner) := by
  unfold chargeRegistrations
  apply quiet_chargeRate
  exact fun _ _ => rfl

theorem aside_chargeReplacements (owner : PrincipalKey) :
    Aside (chargeReplacements nowNs owner) := by
  unfold chargeReplacements
  apply quiet_chargeRate
  exact fun _ _ => rfl

theorem aside_chargeRevocationRate (owner : PrincipalKey) :
    Aside (chargeRevocationRate nowNs owner) := by
  unfold chargeRevocationRate
  apply quiet_chargeRate
  exact fun _ _ => rfl

theorem aside_checkNewDevice (owner : PrincipalKey) (args : RegisterArgs) :
    Aside (checkNewDevice owner args) := by
  unfold checkNewDevice
  refine Quiet.bind (aside_lift _) fun _ => Quiet.bind (aside_demand _ _) fun _ => ?_
  refine Quiet.bind (aside_demand _ _) fun _ => Quiet.bind (aside_demand _ _) fun _ => ?_
  refine Quiet.bind (aside_demand _ _) fun _ => Quiet.bind (quiet_read _) fun _ => ?_
  refine Quiet.bind (aside_demand _ _) fun _ => Quiet.bind (quiet_read _) fun _ => ?_
  exact Quiet.bind (aside_demand _ _) fun _ => quiet_pure _

theorem aside_consumeBootstrap (owner : PrincipalKey) : Aside (consumeBootstrap owner nowNs) := by
  unfold consumeBootstrap
  refine Quiet.bind (quiet_read _) fun _ => Quiet.bind (aside_demand _ _) fun _ => ?_
  refine Quiet.bind (aside_lift _) fun _ => Quiet.bind (quiet_write fun _ => rfl) fun _ => ?_
  exact quiet_pure _

theorem aside_approveBySignature (caller : PrincipalBytes) (args : RegisterArgs)
    (signed : SignedApproval) : Aside (approveBySignature D nowNs caller args signed) := by
  unfold approveBySignature
  refine Quiet.bind (aside_checkIssuer _ _) fun _ => Quiet.bind (aside_lift _) fun _ => ?_
  exact Quiet.bind (aside_consumeNonce _ _ _ _) fun _ => quiet_pure _

theorem aside_approve (caller : PrincipalBytes) (args : RegisterArgs) :
    Aside (approve D nowNs caller args) := by
  unfold approve
  cases args.approval with
  | bootstrap => exact aside_consumeBootstrap _
  | device signed => exact aside_approveBySignature _ _ _

theorem aside_registerDevice (caller : PrincipalBytes) (args : RegisterArgs) :
    Aside (registerDevice D nowNs caller args) := by
  unfold registerDevice
  refine Quiet.bind (aside_demand _ _) fun _ => Quiet.bind (aside_chargeRegistrations _) fun _ => ?_
  refine Quiet.bind (aside_checkNewDevice _ _) fun _ => Quiet.bind (aside_approve _ _) fun _ => ?_
  exact quiet_write fun _ => rfl

theorem aside_revokeDevice (caller : PrincipalBytes) (deviceId : Bytes) (approval : SignedApproval) :
    Aside (revokeDevice D nowNs caller deviceId approval) := by
  unfold revokeDevice
  refine Quiet.bind (aside_demand _ _) fun _ => Quiet.bind (aside_chargeRevocationRate _) fun _ => ?_
  refine Quiet.bind (aside_lift _) fun _ => Quiet.bind (aside_checkIssuer _ _) fun _ => ?_
  refine Quiet.bind (aside_lift _) fun _ => Quiet.bind (quiet_read _) fun _ => ?_
  refine Quiet.bind (aside_need _ _) fun _ => Quiet.bind (aside_demand _ _) fun _ => ?_
  exact Quiet.bind (aside_consumeNonce _ _ _ _) fun _ => quiet_write fun _ => rfl

theorem aside_replaceEnvelope (caller : PrincipalBytes) (deviceId newEnvelope : Bytes)
    (approval : SignedApproval) :
    Aside (replaceEnvelope D nowNs caller deviceId newEnvelope approval) := by
  unfold replaceEnvelope
  refine Quiet.bind (aside_demand _ _) fun _ => Quiet.bind (aside_chargeReplacements _) fun _ => ?_
  refine Quiet.bind (aside_lift _) fun _ => Quiet.bind (aside_demand _ _) fun _ => ?_
  refine Quiet.bind (aside_demand _ _) fun _ => Quiet.bind (aside_checkIssuer _ _) fun _ => ?_
  refine Quiet.bind (quiet_read _) fun _ => Quiet.bind (aside_need _ _) fun _ => ?_
  refine Quiet.bind (aside_lift _) fun _ => Quiet.bind (aside_consumeNonce _ _ _ _) fun _ => ?_
  exact quiet_write fun _ => rfl

theorem aside_setDeviceApprovalPolicy (caller : PrincipalBytes) (require : Bool)
    (approval : SignedApproval) :
    Aside (setDeviceApprovalPolicy D nowNs caller require approval) := by
  unfold setDeviceApprovalPolicy
  refine Quiet.bind (aside_demand _ _) fun _ => Quiet.bind (aside_chargeRevocationRate _) fun _ => ?_
  refine Quiet.bind (aside_checkIssuer _ _) fun _ => Quiet.bind (aside_lift _) fun _ => ?_
  exact Quiet.bind (aside_consumeNonce _ _ _ _) fun _ => quiet_write fun _ => rfl

theorem aside_requestDeviceApprovalPolicyClear (caller : PrincipalBytes) :
    Aside (requestDeviceApprovalPolicyClear nowNs caller) := by
  unfold requestDeviceApprovalPolicyClear
  refine Quiet.bind (aside_demand _ _) fun _ => Quiet.bind (aside_chargeRevocationRate _) fun _ => ?_
  refine Quiet.bind (quiet_read _) fun _ => Quiet.bind (aside_need _ _) fun row => ?_
  cases row.pendingClearAtNs with
  | none => exact Quiet.bind (quiet_write fun _ => rfl) fun _ => quiet_pure _
  | some existing => exact quiet_pure _

theorem aside_authorizeReBootstrap (caller target : PrincipalBytes) (approval : SignedApproval) :
    Aside (authorizeReBootstrap D nowNs caller target approval) := by
  unfold authorizeReBootstrap
  refine Quiet.bind (aside_demand _ _) fun _ => Quiet.bind (aside_demand _ _) fun _ => ?_
  refine Quiet.bind (aside_chargeRevocationRate _) fun _ => ?_
  refine Quiet.bind (aside_checkIssuer _ _) fun _ => Quiet.bind (aside_lift _) fun _ => ?_
  exact Quiet.bind (aside_consumeNonce _ _ _ _) fun _ => quiet_write fun _ => rfl

/-- A message that keeps the view leaves it, where it is not rolled back. -/
theorem Aside.answered {α : Type} {x : Endpoint α} (hx : Aside x)
    {f : Except VetkeysError α → Answer} {s s' : VetkeysState}
    (h : (answered x f s).state? = some s') : s'.deriveView = s.deriveView := by
  unfold Vetkeys.answered at h
  cases hr : x.exec s with
  | error e => rw [hr] at h; exact nomatch h
  | ok p =>
    rw [hr] at h
    cases h
    exact (hx s p.1 p.2 hr).1

/-- Only a derive touches what the derives keep. -/
theorem start_deriveView {i : Input} {s s' : VetkeysState}
    (h : (start D nowNs i s).state? = some s')
    (hi : ∀ caller transportKey live, i ≠ .getEncryptedVetkey caller transportKey live) :
    s'.deriveView = s.deriveView := by
  cases i with
  | getEncryptedVetkey caller transportKey live => exact absurd rfl (hi caller transportKey live)
  | registerDevice caller args => exact (aside_registerDevice caller args).answered h
  | revokeDevice caller deviceId approval =>
    exact (aside_revokeDevice caller deviceId approval).answered h
  | replaceEnvelope caller deviceId newEnvelope approval =>
    exact (aside_replaceEnvelope caller deviceId newEnvelope approval).answered h
  | setDeviceApprovalPolicy caller require approval =>
    exact (aside_setDeviceApprovalPolicy caller require approval).answered h
  | requestDeviceApprovalPolicyClear caller =>
    exact (aside_requestDeviceApprovalPolicyClear caller).answered h
  | authorizeReBootstrap caller target approval =>
    exact (aside_authorizeReBootstrap caller target approval).answered h

end StshProtocol.Vetkeys
