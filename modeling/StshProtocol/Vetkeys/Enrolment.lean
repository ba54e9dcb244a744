import StshProtocol.Foundation.Sha256
import StshProtocol.Foundation.Thread
import StshProtocol.Vetkeys.Turns
import StshProtocol.Vetkeys.Quota

/-! Devices are enrolled by authority only.

A ticket that still serves was left by a derive of its principal, and a policy row that opens
the way of tickets again was signed for by a device, both after the last enrolment by a ticket
(`Custody`): an enrolment by a ticket uses up the one and erases the other. So whatever is
enrolled was signed for by an active device, or had such a ticket, and once all devices are
revoked such a row as well. -/
namespace StshProtocol.Vetkeys
open Foundation ShieldedPool Vesting StableMap

/-- The mark was made, and no device of the principal has been enrolled by a ticket since. -/
def Since (who : PrincipalKey) (m : Mark) (marks : List Mark) : Prop :=
  ∃ later earlier, marks = later ++ m :: earlier ∧ ∀ k, Mark.enrolled who k .bootstrap ∉ later

section Since
variable {who : PrincipalKey} {m m' : Mark} {marks : List Mark}

theorem since_here : Since who m (m :: marks) := ⟨[], marks, rfl, nofun⟩

theorem Since.push (h : Since who m marks) (hm : ∀ k, Mark.enrolled who k .bootstrap ≠ m') :
    Since who m (m' :: marks) := by
  obtain ⟨later, earlier, rfl, hnone⟩ := h
  refine ⟨m' :: later, earlier, rfl, fun k hk => ?_⟩
  rcases List.mem_cons.1 hk with hhere | hlater
  · exact hm k hhere
  · exact hnone k hlater

end Since

/-- What the canister holds of devices, tickets and policies is in order. -/
structure Custody (now : Nat) (v : DeviceView) : Prop where
  keys : ∀ k r, v.devices[k]? = some r → IsDeviceKey k
  envelopes : ∀ k, v.wrappedSecrets.contains k ↔ ∃ r, v.devices[k]? = some r ∧ r.status = .active
  tickets : ∀ who t, v.bootstrapTickets[who]? = some t → t.used = false →
    ∃ mintedAt, Since who (.minted who mintedAt) v.marks ∧ mintedAt ≤ now ∧
      t.expiresAtNs ≤ mintedAt + bootstrapTicketTtlNs
  policies : ∀ who p, v.reBootstrapPolicy[who]? = some p → p.allowReBootstrap = true →
    ∃ issuer record, Since who (.authorized who issuer record) v.marks

namespace Custody
variable {D : Deployment} {now now' nowNs : Nat} {v v' : DeviceView} {s s' : VetkeysState}

theorem later (h : Custody now v) (hle : now ≤ now') : Custody now' v where
  keys := h.keys
  envelopes := h.envelopes
  tickets who t ht hused := by
    obtain ⟨mintedAt, hsince, hmint, hexpires⟩ := h.tickets who t ht hused
    exact ⟨mintedAt, hsince, Nat.le_trans hmint hle, hexpires⟩
  policies := h.policies

/-- An enrolment by a ticket uses up the principal's ticket and erases its policy row. -/
theorem spend (h : Custody now v) (who : PrincipalKey) (k : Bytes) (ticket : BootstrapTicket) :
    Custody now {v with
      bootstrapTickets := v.bootstrapTickets.insert who ticket.consume
      reBootstrapPolicy := v.reBootstrapPolicy.erase who
      marks := .enrolled who k .bootstrap :: v.marks} where
  keys := h.keys
  envelopes := h.envelopes
  tickets who' t ht hused := by
    rw [get_insert] at ht
    by_cases hwho : who = who'
    · rw [if_pos hwho] at ht
      obtain rfl := Option.some.inj ht
      exact nomatch hused
    · rw [if_neg hwho] at ht
      obtain ⟨mintedAt, hsince, hmint⟩ := h.tickets who' t ht hused
      exact ⟨mintedAt, hsince.push fun _ heq => hwho (Mark.enrolled.inj heq).1.symm, hmint⟩
  policies who' p hp hallow := by
    rw [get_erase] at hp
    by_cases hwho : who = who'
    · rw [if_pos hwho] at hp
      exact nomatch hp
    · rw [if_neg hwho] at hp
      obtain ⟨issuer, record, hsince⟩ := h.policies who' p hp hallow
      exact ⟨issuer, record, hsince.push fun _ heq => hwho (Mark.enrolled.inj heq).1.symm⟩

/-- A mark that is no enrolment by a ticket leaves what there was. -/
theorem push (h : Custody now v) {m : Mark} (hm : ∀ who k, Mark.enrolled who k .bootstrap ≠ m) :
    Custody now {v with marks := m :: v.marks} where
  keys := h.keys
  envelopes := h.envelopes
  tickets who t ht hused := by
    obtain ⟨mintedAt, hsince, hmint⟩ := h.tickets who t ht hused
    exact ⟨mintedAt, hsince.push (hm who), hmint⟩
  policies who p hp hallow := by
    obtain ⟨issuer, record, hsince⟩ := h.policies who p hp hallow
    exact ⟨issuer, record, hsince.push (hm who)⟩

/-- A device that is active comes with its envelope. -/
theorem enrol (h : Custody now v) {k envelope : Bytes} {r : DeviceRecord} (hk : IsDeviceKey k)
    (hactive : r.status = .active) :
    Custody now {v with
      devices := v.devices.insert k r, wrappedSecrets := v.wrappedSecrets.insert k envelope} where
  keys k' r' hr := by
    rw [get_insert] at hr
    by_cases hkey : k = k'
    · exact hkey ▸ hk
    · rw [if_neg hkey] at hr
      exact h.keys k' r' hr
  envelopes k' := by
    rw [contains_iff, get_insert, get_insert]
    by_cases hkey : k = k'
    · rw [if_pos hkey, if_pos hkey]
      exact iff_of_true ⟨envelope, rfl⟩ ⟨r, rfl, hactive⟩
    · rw [if_neg hkey, if_neg hkey, ← contains_iff]
      exact h.envelopes k'
  tickets := h.tickets
  policies := h.policies

/-- A device that is revoked loses its envelope. -/
theorem revoke (h : Custody now v) {k : Bytes} {r r' : DeviceRecord} (hrow : v.devices[k]? = some r)
    (hrevoked : r'.status = .revoked) :
    Custody now {v with
      devices := v.devices.insert k r', wrappedSecrets := v.wrappedSecrets.erase k} where
  keys k' r'' hr := by
    rw [get_insert] at hr
    by_cases hkey : k = k'
    · exact hkey ▸ h.keys k r hrow
    · rw [if_neg hkey] at hr
      exact h.keys k' r'' hr
  envelopes k' := by
    rw [contains_iff, get_insert, get_erase]
    by_cases hkey : k = k'
    · rw [if_pos hkey, if_pos hkey]
      refine ⟨fun ⟨_, hnone⟩ => (nomatch hnone), fun ⟨r'', hr, hactive⟩ => ?_⟩
      obtain rfl := Option.some.inj hr
      rw [hrevoked] at hactive
      exact nomatch hactive
    · rw [if_neg hkey, if_neg hkey, ← contains_iff]
      exact h.envelopes k'
  tickets := h.tickets
  policies := h.policies

theorem replace (h : Custody now v) {k old envelope : Bytes} (hold : v.wrappedSecrets[k]? = some old) :
    Custody now {v with wrappedSecrets := v.wrappedSecrets.insert k envelope} where
  keys := h.keys
  envelopes k' := by
    rw [contains_iff, get_insert]
    by_cases hkey : k = k'
    · subst hkey
      rw [if_pos rfl, ← h.envelopes k, contains_iff]
      exact ⟨fun _ => ⟨old, hold⟩, fun _ => ⟨envelope, rfl⟩⟩
    · rw [if_neg hkey, ← contains_iff]
      exact h.envelopes k'
  tickets := h.tickets
  policies := h.policies

theorem setPolicy (h : Custody now v) (policies : StableMap PrincipalKey DeviceApprovalPolicyV1) :
    Custody now {v with deviceApprovalPolicy := policies} :=
  ⟨h.keys, h.envelopes, h.tickets, h.policies⟩

theorem mint (h : Custody now v) (who : PrincipalKey) :
    Custody now {v with
      bootstrapTickets := v.bootstrapTickets.insert who (.mint now)
      marks := .minted who now :: v.marks} where
  keys := h.keys
  envelopes := h.envelopes
  tickets who' t ht hused := by
    rw [get_insert] at ht
    by_cases hwho : who = who'
    · rw [if_pos hwho] at ht
      obtain rfl := Option.some.inj ht
      subst hwho
      exact ⟨now, since_here, Nat.le_refl _, Nat.min_le_left _ _⟩
    · rw [if_neg hwho] at ht
      obtain ⟨mintedAt, hsince, hmint⟩ := h.tickets who' t ht hused
      exact ⟨mintedAt, hsince.push (by nofun), hmint⟩
  policies := (h.push (by nofun)).policies

theorem authorize (h : Custody now v) (who : PrincipalKey) (issuer : DeviceIdKey)
    (record : DeviceRecord) (p : RebootstrapPolicyV1) :
    Custody now {v with
      reBootstrapPolicy := v.reBootstrapPolicy.insert who p
      marks := .authorized who issuer record :: v.marks} where
  keys := h.keys
  envelopes := h.envelopes
  tickets := (h.push (by nofun)).tickets
  policies who' p' hp hallow := by
    rw [get_insert] at hp
    by_cases hwho : who = who'
    · subst hwho
      exact ⟨issuer, record, since_here⟩
    · rw [if_neg hwho] at hp
      obtain ⟨issuer', record', hsince⟩ := h.policies who' p' hp hallow
      exact ⟨issuer', record', hsince.push (by nofun)⟩

/-- Whatever a device message does, things stay in order. -/
theorem turn {i : Input} (h : Custody now s.deviceView) (hturn : Turn D now s s' i) :
    Custody now s'.deviceView := by
  cases hturn with
  | @enrolled caller args d approvedBy v hid hnew happroves hview =>
    have hk : IsDeviceKey (deviceKey (PrincipalKey.new caller) d) := ⟨caller, args.deviceId, d, hid, rfl⟩
    rw [hview]
    cases happroves with
    | @ticket ticket _ _ =>
      exact (h.spend _ _ ticket).enrol hk rfl
    | device _ _ => exact (h.push (by nofun)).enrol hk rfl
  | revoked hrow hactive hview => exact hview ▸ h.revoke hrow rfl
  | replaced hold hview => exact hview ▸ h.replace hold
  | policySet hview => exact hview ▸ h.setPolicy _
  | clearRequested hview => exact hview ▸ h.setPolicy _
  | authorized _ _ hview => exact hview ▸ h.authorize _ _ _ _

end Custody

/-! ### Steps -/

section Steps
variable {D : Deployment} {w w' : VetkeysWorld} {e : Event Input Reply}

/-- What a step does to the devices, the tickets and the policies. -/
inductive DeviceStep (D : Deployment) (w w' : VetkeysWorld) : Event Input Reply → Prop
  | rest {e : Event Input Reply} (h : w'.state.deviceView = w.state.deviceView) : DeviceStep D w w' e
  | turn {i : Input} (h : Turn D w.now w.state w'.state i) : DeviceStep D w w' (.call i)
  | minted {t : Nat} {r : Reply} {caller : PrincipalBytes} {admitted : Admitted} {encryptedKey : Bytes}
      (htask : w.tasks t = some (.derive caller admitted))
      (hreply : resume D w.now (.derive caller admitted) r w.state =
        .reply w'.state (.key (.ok ⟨encryptedKey, admitted.remaining⟩)))
      (h : w'.state.deviceView = {w.state.deviceView with
        bootstrapTickets := w.state.bootstrapTickets.insert (PrincipalKey.new caller) (.mint w.now)
        marks := .minted (PrincipalKey.new caller) w.now :: w.state.marks}) :
      DeviceStep D w w' (.reply t r)

theorem step_now (hstep : (canister D).Step anyCallees w e w') : w.now ≤ w'.now := by
  cases hstep with
  | call hl => exact Nat.le_of_eq hl.now.symm
  | reply _ _ hl => exact Nat.le_of_eq hl.now.symm
  | wait h => exact h
  | callTrap | replyTrap | upgrade | elsewhere | others => exact Nat.le_refl _

theorem call_device {i : Input} (hl : Lands anyCallees w (start D w.now i w.state) w') :
    DeviceStep D w w' (.call i) := by
  have hview : w'.state.deviceView = w.state.deviceView ∨ Turn D w.now w.state w'.state i := by
    cases i with
    | getEncryptedVetkey caller transportKey live => exact .inl (congrArg OwnerView.device (getEncryptedVetkey_view hl.state))
    | registerDevice | revokeDevice | replaceEnvelope | setDeviceApprovalPolicy
    | requestDeviceApprovalPolicyClear | authorizeReBootstrap => exact start_turn hl.state nofun
  exact hview.elim .rest .turn

theorem reply_device {t : Nat} {k : VetkeysTask} {r : Reply} (hk : w.tasks t = some k)
    (hl : Lands anyCallees (w.finish t) (resume D w.now k r w.state) w') :
    DeviceStep D w w' (.reply t r) := by
  cases k with
  | eligibility caller transportKey admitted => exact .rest (congrArg OwnerView.device (eligibilityAnswered_view hl.state))
  | derive caller admitted =>
    rcases deriveAnswered_view hl.state with hview | ⟨⟨_, hreply⟩, hview⟩
    · exact .rest (congrArg OwnerView.device hview)
    · exact .minted hk hreply (congrArg OwnerView.device hview)

theorem step_device (hstep : (canister D).Step anyCallees w e w') : DeviceStep D w w' e := by
  cases hstep with
  | call hl => exact call_device hl
  | reply hk _ hl => exact reply_device hk hl
  | callTrap => exact .rest rfl
  | replyTrap => exact .rest rfl
  | upgrade h =>
    cases h
    exact .rest rfl
  | wait => exact .rest rfl
  | elsewhere => exact .rest rfl
  | others h =>
    obtain ⟨token, htoken⟩ := h
    rw [setTokenCanister_eq htoken]
    exact .rest rfl

theorem Custody.step (h : Custody w.now w.state.deviceView) (hd : DeviceStep D w w' e) :
    Custody w.now w'.state.deviceView := by
  cases hd with
  | rest hview => exact hview ▸ h
  | turn hturn => exact h.turn hturn
  | minted _ _ hview => exact hview ▸ h.mint _

theorem custody_fresh (now : Nat) : Custody now VetkeysState.fresh.deviceView where
  keys _ _ h := nomatch h
  envelopes _ := ⟨fun h => (nomatch h), fun ⟨_, h, _⟩ => nomatch h⟩
  tickets _ _ h := nomatch h
  policies _ _ h := nomatch h

theorem custody_installed (h : Installed w) : Custody w.now w.state.deviceView := by
  obtain ⟨token, hstate⟩ := h.state_eq
  rw [hstate]
  exact custody_fresh w.now

/-- Things are in order throughout every run. -/
theorem run_custody (run : (system D).Reachable w) : Custody w.now w.state.deviceView :=
  run.invariant (fun _ h => custody_installed h)
    fun w e w' _ h _ (hstep : (canister D).Step anyCallees w e w') =>
      (h.step (step_device hstep)).later (step_now hstep)

end Steps

/-! ### By whose authority -/

/-- By what authority a device is enrolled: a signature of an active device of the principal for
exactly what is stored, or a ticket. A ticket was left by a derive less than its lifetime ago and
has not served, no device's approval is demanded, and where all devices were revoked one of them
has authorised it since a ticket last served. -/
inductive Authority (D : Deployment) (Signs : Bytes → Statement → Prop) (nowNs : Nat)
    (s : VetkeysState) (caller : PrincipalBytes) (args : RegisterArgs) : ApprovedBy → Prop
  | device {issuerId : Bytes} {issuerKey : DeviceIdKey} {issuer : DeviceRecord}
      (hid : DeviceIdKey.new issuerId = some issuerKey)
      (hsigned : SignedFor D Signs s caller issuerKey issuer
        (.register issuerId args.deviceId args.encPubkeySpki args.signPubkeySpki args.wrappedSecret)) :
      Authority D Signs nowNs s caller args (.device issuerKey)
  | ticket {mintedAtNs : Nat}
      (hminted : Since (PrincipalKey.new caller) (.minted (PrincipalKey.new caller) mintedAtNs) s.marks)
      (hpast : mintedAtNs ≤ nowNs) (hfresh : nowNs < mintedAtNs + bootstrapTicketTtlNs)
      (hflag : s.HasActive (PrincipalKey.new caller) →
        ¬s.ApprovalInForce (PrincipalKey.new caller) nowNs)
      (hrevoked : s.HasDevice (PrincipalKey.new caller) → ¬s.HasActive (PrincipalKey.new caller) →
        ∃ issuer record, Since (PrincipalKey.new caller)
          (.authorized (PrincipalKey.new caller) issuer record) s.marks) :
      Authority D Signs nowNs s caller args .bootstrap

/-- The device is enrolled by this step: by a registration of its owner, with the fields of its
arguments, by authority, and a mark is made of it. -/
structure Enrolled (D : Deployment) (Signs : Bytes → Statement → Prop) (w w' : VetkeysWorld)
    (caller : PrincipalBytes) (args : RegisterArgs) (k : Bytes) (r : DeviceRecord) : Prop where
  key : ∃ d, DeviceIdKey.new args.deviceId = some d ∧ k = deviceKey (PrincipalKey.new caller) d
  record : r = args.record w.now r.approvedBy
  envelope : w'.state.wrappedSecrets[k]? = some args.wrappedSecret
  mark : w'.state.marks = .enrolled (PrincipalKey.new caller) k r.approvedBy :: w.state.marks
  authority : Authority D Signs w.now w.state caller args r.approvedBy

/-- What a mark made by this step tells: a derive that has returned its key to the principal, an
enrolment, or an authorisation signed for by a device that is active. -/
inductive Marked (D : Deployment) (Signs : Bytes → Statement → Prop) (w w' : VetkeysWorld) :
    Event Input Reply → Mark → Prop
  | minted {t : Nat} {r : Reply} {caller : PrincipalBytes} {admitted : Admitted} {encryptedKey : Bytes}
      (htask : w.tasks t = some (.derive caller admitted))
      (hreply : resume D w.now (.derive caller admitted) r w.state =
        .reply w'.state (.key (.ok ⟨encryptedKey, admitted.remaining⟩))) :
      Marked D Signs w w' (.reply t r) (.minted (PrincipalKey.new caller) w.now)
  | enrolled {caller : PrincipalBytes} {args : RegisterArgs} {k : Bytes} {r : DeviceRecord}
      (hnew : w.state.devices[k]? = none) (hrow : w'.state.devices[k]? = some r) :
      Marked D Signs w w' (.call (.registerDevice caller args))
        (.enrolled (PrincipalKey.new caller) k r.approvedBy)
  | authorized {caller : PrincipalBytes} {approval : SignedApproval} {issuerKey : DeviceIdKey}
      {issuer : DeviceRecord} (hid : DeviceIdKey.new approval.issuerDeviceId = some issuerKey)
      (hsigned : SignedFor D Signs w.state caller issuerKey issuer
        (.authorizeReBootstrap approval.issuerDeviceId)) :
      Marked D Signs w w' (.call (.authorizeReBootstrap caller caller approval))
        (.authorized (PrincipalKey.new caller) issuerKey issuer)

/-- What holds of the devices at a step. -/
structure ByAuthority (D : Deployment) (Signs : Bytes → Statement → Prop) (w w' : VetkeysWorld)
    (e : Event Input Reply) : Prop where
  envelopes : ∀ k, w.state.wrappedSecrets.contains k ↔
    ∃ r, w.state.devices[k]? = some r ∧ r.status = .active
  kept : ∀ (k : Bytes) (r : DeviceRecord), w.state.devices[k]? = some r → w'.state.devices[k]? = some r ∨
    r.status = .active ∧
      w'.state.devices[k]? = some {r with status := .revoked, revokedAtNs := some w.now}
  enrolled : ∀ (k : Bytes) (r : DeviceRecord), w.state.devices[k]? = none → w'.state.devices[k]? = some r →
    ∃ caller args, e = .call (.registerDevice caller args) ∧ Enrolled D Signs w w' caller args k r
  marked : w'.state.marks = w.state.marks ∨
    ∃ m, w'.state.marks = m :: w.state.marks ∧ Marked D Signs w w' e m

section Authority
variable {D : Deployment} {Signs : Bytes → Statement → Prop} {w w' : VetkeysWorld}
  {e : Event Input Reply} {nowNs : Nat} {s : VetkeysState} {caller : PrincipalBytes}

/-- What verifies was signed, with the fields in full. -/
theorem SignedFor.of_verified (hunforgeable : Unforgeable D Signs) (hfree : CollisionFree D Signs)
    {issuerKey : DeviceIdKey} {issuer : DeviceRecord} {deed : Deed Bytes}
    (hids : ∀ id ∈ deed.ids, id.length ≤ maxDeviceIdBytes)
    (h : SignedFor D (Verified D) s caller issuerKey issuer deed) :
    SignedFor D Signs s caller issuerKey issuer deed := by
  obtain ⟨hrow, hactive, nonce, expiryNs, signature, hverifies⟩ := h
  obtain ⟨expiryNs', hsigned⟩ := signed_of_verified hunforgeable hfree hids hverifies
  exact ⟨hrow, hactive, nonce, expiryNs', hsigned⟩

theorem checkConsumable_ok {ticket : Option BootstrapTicket} {t : BootstrapTicket}
    (h : checkConsumable ticket nowNs = .ok t) :
    ticket = some t ∧ t.used = false ∧ nowNs < t.expiresAtNs := by
  cases ticket with
  | none => exact nomatch h
  | some ticket =>
    simp only [checkConsumable] at h
    split at h
    · exact nomatch h
    · next hused =>
      split at h
      · exact nomatch h
      · next hfresh =>
        obtain rfl := Except.ok.inj h
        exact ⟨rfl, Bool.eq_false_iff.2 hused, Nat.not_le.1 hfresh⟩

/-- What approves an enrolment where things are in order is an authority. -/
theorem Approves.authority (hunforgeable : Unforgeable D Signs) (hfree : CollisionFree D Signs)
    {args : RegisterArgs} {d : DeviceIdKey} {approvedBy : ApprovedBy} {v : DeviceView}
    (hcustody : Custody nowNs s.deviceView) (hid : DeviceIdKey.new args.deviceId = some d)
    (h : Approves D nowNs s caller args approvedBy v) :
    Authority D Signs nowNs s caller args approvedBy := by
  cases h with
  | ticket hopen hticket =>
    obtain ⟨hrow, hused, hfresh⟩ := checkConsumable_ok hticket
    obtain ⟨mintedAt, hminted, hpast, hexpires⟩ := hcustody.tickets _ _ hrow hused
    obtain ⟨hflag, hpolicy⟩ := VetkeysState.of_bootstrapPathOpen hcustody.keys hopen
    refine .ticket hminted hpast (Nat.lt_of_lt_of_le hfresh hexpires) hflag fun hdevice hnone => ?_
    obtain ⟨policy, hrow, hallow⟩ := hpolicy hdevice hnone
    exact hcustody.policies _ _ hrow hallow
  | @device issuerId _ _ hissuer hsigned =>
    refine .device hissuer (hsigned.of_verified hunforgeable hfree fun id hmem => ?_)
    rcases List.mem_cons.1 hmem with rfl | hmem
    · exact length_of_deviceIdKey hissuer
    · rw [List.mem_singleton.1 hmem]
      exact length_of_deviceIdKey hid

/-- The rows after an insertion: a row that was there is the same, unless it is the one. -/
theorem turn_rows {i : Input} (hturn : Turn D w.now w.state w'.state i) {k : Bytes}
    {r : DeviceRecord} (hrow : w.state.devices[k]? = some r) :
    w'.state.devices[k]? = some r ∨ r.status = .active ∧
      w'.state.devices[k]? = some {r with status := .revoked, revokedAtNs := some w.now} := by
  cases hturn with
  | enrolled _ hnew _ hview =>
    have hdevices : w'.state.devices = _ := congrArg DeviceView.devices hview
    refine .inl ?_
    rw [hdevices, get_insert_ne, hrow]
    rintro rfl
    exact nomatch hnew.symm.trans hrow
  | @revoked _ _ k' _ record hrecord hactive hview =>
    have hdevices : w'.state.devices = _ := congrArg DeviceView.devices hview
    rw [hdevices, get_insert]
    by_cases hk : k' = k
    · subst hk
      obtain rfl := Option.some.inj (hrecord.symm.trans hrow)
      rw [if_pos rfl]
      exact .inr ⟨hactive, rfl⟩
    · rw [if_neg hk]
      exact .inl hrow
  | replaced _ hview | policySet hview | clearRequested hview | authorized _ _ hview =>
    have hdevices : w'.state.devices = w.state.devices := congrArg DeviceView.devices hview
    exact .inl (hdevices ▸ hrow)

/-- A row that is new is the one enrolled. -/
theorem turn_new (hunforgeable : Unforgeable D Signs) (hfree : CollisionFree D Signs) {i : Input}
    (hcustody : Custody w.now w.state.deviceView) (hturn : Turn D w.now w.state w'.state i)
    {k : Bytes} {r : DeviceRecord} (hnone : w.state.devices[k]? = none)
    (hrow : w'.state.devices[k]? = some r) :
    ∃ caller args, i = .registerDevice caller args ∧ Enrolled D Signs w w' caller args k r := by
  cases hturn with
  | @enrolled caller args d approvedBy v hid hnew happroves hview =>
    have hdevices : w'.state.devices = _ := congrArg DeviceView.devices hview
    have hsecrets : w'.state.wrappedSecrets = _ := congrArg DeviceView.wrappedSecrets hview
    have hmarks : w'.state.marks = _ := congrArg DeviceView.marks hview
    rw [hdevices, get_insert] at hrow
    by_cases hk : deviceKey (PrincipalKey.new caller) d = k
    · rw [if_pos hk] at hrow
      obtain rfl := Option.some.inj hrow
      subst hk
      refine ⟨caller, args, rfl, ⟨d, hid, rfl⟩, rfl, ?_, hmarks, ?_⟩
      · rw [hsecrets, get_insert, if_pos rfl]
      · exact happroves.authority hunforgeable hfree hcustody hid
    · rw [if_neg hk, hnone] at hrow
      exact nomatch hrow
  | @revoked _ _ k' _ record hrecord _ hview =>
    have hdevices : w'.state.devices = _ := congrArg DeviceView.devices hview
    rw [hdevices, get_insert_ne, hnone] at hrow
    · exact nomatch hrow
    · rintro rfl
      exact nomatch hnone.symm.trans hrecord
  | replaced _ hview | policySet hview | clearRequested hview | authorized _ _ hview =>
    have hdevices : w'.state.devices = w.state.devices := congrArg DeviceView.devices hview
    rw [hdevices, hnone] at hrow
    exact nomatch hrow

theorem turn_marks (hunforgeable : Unforgeable D Signs) (hfree : CollisionFree D Signs) {i : Input}
    (hturn : Turn D w.now w.state w'.state i) :
    w'.state.marks = w.state.marks ∨
      ∃ m, w'.state.marks = m :: w.state.marks ∧ Marked D Signs w w' (.call i) m := by
  cases hturn with
  | @enrolled caller args d approvedBy v hid hnew happroves hview =>
    have hdevices : w'.state.devices = _ := congrArg DeviceView.devices hview
    have hrow : w'.state.devices[deviceKey (PrincipalKey.new caller) d]? =
        some (args.record w.now approvedBy) := by rw [hdevices, get_insert, if_pos rfl]
    exact .inr ⟨_, congrArg DeviceView.marks hview, .enrolled hnew hrow⟩
  | @authorized caller approval _ _ hid hsigned hview =>
    have hids : ∀ id ∈ (Deed.authorizeReBootstrap approval.issuerDeviceId : Deed Bytes).ids,
        id.length ≤ maxDeviceIdBytes := fun id hmem => by
      rw [List.mem_singleton.1 hmem]
      exact length_of_deviceIdKey hid
    exact .inr ⟨_, congrArg DeviceView.marks hview,
      .authorized hid (hsigned.of_verified hunforgeable hfree hids)⟩
  | revoked _ _ hview | replaced _ hview | policySet hview | clearRequested hview =>
    exact .inl (congrArg DeviceView.marks hview)

/-- In every run a device is enrolled by authority only, stays enrolled, is revoked at most once,
and has its envelope while it is active. -/
theorem devices_enrolled_by_authority (hunforgeable : Unforgeable D Signs)
    (hfree : CollisionFree D Signs) (run : (system D).Reachable w)
    (hstep : (system D).step w e w') : ByAuthority D Signs w w' e := by
  have hcustody := run_custody run
  cases step_device hstep with
  | rest hview =>
    have hdevices : w'.state.devices = w.state.devices := congrArg DeviceView.devices hview
    refine ⟨hcustody.envelopes, fun k r hrow => .inl (hdevices ▸ hrow), fun k r hnone hrow => ?_,
      .inl (congrArg DeviceView.marks hview)⟩
    rw [hdevices, hnone] at hrow
    exact nomatch hrow
  | turn hturn =>
    refine ⟨hcustody.envelopes, fun k r => turn_rows hturn, fun k r hnone hrow => ?_,
      turn_marks hunforgeable hfree hturn⟩
    obtain ⟨caller, args, rfl, henrolled⟩ :=
      turn_new hunforgeable hfree hcustody hturn hnone hrow
    exact ⟨caller, args, rfl, henrolled⟩
  | minted htask hreply hview =>
    have hdevices : w'.state.devices = w.state.devices := congrArg DeviceView.devices hview
    refine ⟨hcustody.envelopes, fun k r hrow => .inl (hdevices ▸ hrow), fun k r hnone hrow => ?_,
      .inr ⟨_, congrArg DeviceView.marks hview, .minted htask hreply⟩⟩
    rw [hdevices, hnone] at hrow
    exact nomatch hrow

end Authority

/-! ### A played run -/

section Sample

/-- The hash of these fields as it is, and of anything else zeros. -/
def sampleFields : List Bytes := [[3], [4], [6]]

def sampleHash (b : Bytes) : Hash32 :=
  if b ∈ sampleFields then ⟨Bytes.toBe 32 (Sha256.sha256 b).toNat, Bytes.length_toBe 32 _⟩
  else sampleDigest

/-- A point of the curve, encoded as the public key of a device. -/
def sampleSigningKey : Bytes :=
  [0x30, 0x59, 0x30, 0x13, 0x06, 0x07, 0x2a, 0x86, 0x48, 0xce, 0x3d, 0x02, 0x01,
   0x06, 0x08, 0x2a, 0x86, 0x48, 0xce, 0x3d, 0x03, 0x01, 0x07, 0x03, 0x42, 0x00, 0x04] ++
    Bytes.toBe 32 0x0217e617f0b6443928278f96999e69a23a4f2c152bdf6d6cdf66e5b80282d4ed ++
    Bytes.toBe 32 0x194a7debcb97712d2dda3ca85aa8765a56f45fc758599652f2897c65306e5794

def sampleNonce : Nonce16 := ⟨List.replicate 16 0, List.length_replicate⟩

/-- The first device enrols the second. -/
def sampleStatement : Statement where
  canisterId := sampleDeployment.self
  principal := sampleCaller
  deed := .register [0x61] [0x62] [3] [4] [6]
  nonce := sampleNonce
  expiryNs := 2 * hourNs

def sampleSignature : Bytes :=
  Bytes.toBe 32 0xa62f048f367359809c2d46c2049d7d7bf268c3c073c472753cb18a24a8ad20b1 ++
    Bytes.toBe 32 0x1bd6b08f37c107a080bf48b0baf3b3c6d9314410d2790f2d3234f6c6827b82ef

/-- The library as it answers for the one signature made in the run. -/
def enrolDeployment : Deployment where
  self := sampleDeployment.self
  sha256 := sampleHash
  p256 := {
    publicKeyFromDer spki := spki == sampleSigningKey
    signatureFromSlice signature := signature == sampleSignature
    highS _ := false
    verifies spki transcript signature := spki == sampleSigningKey &&
      transcript == sampleStatement.transcript sampleHash && signature == sampleSignature}
  validTransportKey := sampleDeployment.validTransportKey
  undecodable := sampleDeployment.undecodable

/-- The holder of the key signs this and nothing else. -/
def SampleSigns (spki : Bytes) (m : Statement) : Prop := spki = sampleSigningKey ∧ m = sampleStatement

theorem sample_unforgeable : Unforgeable enrolDeployment SampleSigns := by
  intro spki transcript signature h
  simp only [enrolDeployment, Bool.and_eq_true, beq_iff_eq] at h
  exact ⟨sampleStatement, ⟨h.1.1, rfl⟩, h.1.2.symm⟩

theorem sample_collisionFree : CollisionFree enrolDeployment SampleSigns := by
  rintro spki m ⟨-, rfl⟩ field hfield other hhash
  have hfield : field ∈ sampleFields := hfield
  have hhash : sampleHash other = sampleHash field := hhash
  by_cases hother : other ∈ sampleFields
  · have hall : ∀ x ∈ sampleFields, ∀ y ∈ sampleFields, sampleHash x = sampleHash y → x = y := by
      decide +kernel
    exact hall other hother field hfield hhash
  · have hall : ∀ y ∈ sampleFields, sampleHash y ≠ sampleHash [] := by decide +kernel
    refine absurd (hhash.symm.trans ?_) (hall field hfield)
    rw [sampleHash, if_neg hother, sampleHash, if_neg (by decide)]

/-- The first device is enrolled by the ticket of a derive. -/
def firstDevice : RegisterArgs := ⟨[0x61], [1], sampleSigningKey, [2], .bootstrap⟩

/-- The first device signs for the second. -/
def secondDevice : RegisterArgs :=
  ⟨[0x62], [3], [4], [6], .device ⟨[0x61], sampleNonce.val, 2 * hourNs, sampleSignature⟩⟩

def enrolMoves : List (Move Input Reply Unit) :=
  deriveMoves ++ [.call (.registerDevice sampleCaller firstDevice)]

/-- Where the second device is enrolled. -/
def secondKey : Bytes :=
  deviceKey (PrincipalKey.new sampleCaller) (UInt8.ofNat 1 :: [0x62] ++ List.replicate 63 0)

/-- Who approved the second device, and how many marks have been made. -/
def enrolReport (w : VetkeysWorld) : Option ApprovedBy × Nat :=
  (w.state.devices[secondKey]?.map (·.approvedBy), w.state.marks.length)

theorem devices_enrolled_sample : ∃ w w' : VetkeysWorld,
    enrolReport w = (none, 2) ∧
      enrolReport w' = (some (.device (UInt8.ofNat 1 :: [0x61] ++ List.replicate 63 0)), 3) ∧
      ByAuthority enrolDeployment SampleSigns w w' (.call (.registerDevice sampleCaller secondDevice)) := by
  have hplayed : ((anyPlayer.run (canister enrolDeployment) (fun _ _ => true) sampleWorld
      enrolMoves).bind fun w =>
        (anyPlayer.move (canister enrolDeployment) w
          (.call (.registerDevice sampleCaller secondDevice))).map fun w' =>
            (enrolReport w, enrolReport w')) =
      some ((none, 2), (some (.device (UInt8.ofNat 1 :: [0x61] ++ List.replicate 63 0)), 3)) := by
    decide +kernel
  obtain ⟨w, hw, hmove⟩ := Option.bind_eq_some_iff.1 hplayed
  obtain ⟨w', hw', hreport⟩ := Option.map_eq_some_iff.1 hmove
  have run : (system enrolDeployment).Reachable w :=
    Player.run_runIf (fun _ _ _ => trivial) (.start sampleWorld_installed) hw
  exact ⟨w, w', congrArg Prod.fst hreport, congrArg Prod.snd hreport,
    devices_enrolled_by_authority sample_unforgeable sample_collisionFree run
      (Player.move_step hw')⟩

end Sample

end StshProtocol.Vetkeys
