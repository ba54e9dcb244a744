import StshProtocol.Vetkeys.Quota
import StshProtocol.Vetkeys.Turns
import Mathlib.Logic.Relation

/-! What a message can do to the limits.

Every message of the canister moves what limits the derives and the device endpoints by some of a few
moves: an admission, a release or a finalization of a principal's reservations, the fence's commit, a
charge to one of the three windows of attempts, or something that touches none of them. An invariant
of the limits is shown of the moves, and holds in every run (`Moves.run`). -/
namespace StshProtocol.Vetkeys
open Foundation ShieldedPool Vesting Handler

/-- What limits the calls. -/
structure LimitView where
  admission : StableMap PrincipalKey AdmissionState
  globalDeriveBudgetWindow : GlobalDeriveWindow
  meter : MeterState
  registrations : StableMap PrincipalKey RegistrationWindow
  replacements : StableMap PrincipalKey RegistrationWindow
  revocationRate : StableMap PrincipalKey RegistrationWindow

def VetkeysState.limitView (s : VetkeysState) : LimitView where
  admission := s.admission
  globalDeriveBudgetWindow := s.globalDeriveBudgetWindow
  meter := s.meter
  registrations := s.registrations
  replacements := s.replacements
  revocationRate := s.revocationRate

/-- The row of a principal after an attempt. -/
def charged (charge : RegistrationWindow → Except Nat Unit × RegistrationWindow)
    (owner : PrincipalKey) (windows : StableMap PrincipalKey RegistrationWindow) :
    StableMap PrincipalKey RegistrationWindow :=
  windows.insert owner (charge (windows[owner]?.getD .default)).2

/-- One move of the limits. -/
inductive LimitMove (now : Nat) (s : VetkeysState) : VetkeysState → Prop
  | frame {t : VetkeysState} (h : t.limitView = s.limitView) : LimitMove now s t
  | preflight (caller : PrincipalBytes) : LimitMove now s (s.preflightCall now caller).2
  | release (who : PrincipalKey) (id : Nat) : LimitMove now s (s.releaseCall who id)
  | finalize (who : PrincipalKey) (id : Nat) :
      LimitMove now s (s.putAdmission who ((s.admissionOf who).finalize now id).2)
  | fence (who : PrincipalKey) (id : Nat) (firstDerive : Bool) (live : Live) :
      LimitMove now s (s.dispatchFence now who id firstDerive live).2
  | register (owner : PrincipalKey) :
      LimitMove now s {s with registrations := charged (chargeRegistration now) owner s.registrations}
  | replace (owner : PrincipalKey) :
      LimitMove now s {s with replacements := charged (chargeReplacement now) owner s.replacements}
  | revoke (owner : PrincipalKey) :
      LimitMove now s {s with revocationRate := charged (chargeRevocation now) owner s.revocationRate}

/-- Some moves one after another. -/
abbrev Moves (now : Nat) : VetkeysState → VetkeysState → Prop := Relation.ReflTransGen (LimitMove now)

variable {D : Deployment} {now : Nat} {s t u : VetkeysState} {α β : Type}

theorem Moves.frame (h : t.limitView = s.limitView) : Moves now s t := .single (.frame h)

/-! ### The device endpoints -/

/-- However the message ends, it has moved the limits so. -/
abbrev Moving (now : Nat) (x : Endpoint α) : Prop := Within (Moves now) x

theorem Moving.bind {x : Endpoint β} {f : β → Endpoint α} (hx : Moving now x)
    (hf : ∀ b, Moving now (f b)) : Moving now (x >>= f) := by
  intro s r u h
  rw [exec_bind] at h
  cases hxs : x.exec s with
  | error e => rw [hxs] at h; exact nomatch h
  | ok p =>
    obtain ⟨r', t⟩ := p
    rw [hxs] at h
    have hfirst := hx s r' t hxs
    cases r' with
    | error e =>
      cases h
      exact hfirst
    | ok b => exact hfirst.trans (hf b t r u h)

theorem moving_readOnly {x : Endpoint α} (hx : x.ReadOnly) : Moving now x :=
  hx.within fun _ => .refl

theorem moving_write {f : VetkeysState → VetkeysState} (h : ∀ s, (f s).limitView = s.limitView) :
    Moving now (write f) := by
  intro s r t hx
  cases hx
  exact .frame (h s)

theorem moving_demand (p : Prop) [Decidable p] (e : VetkeysError) : Moving now (demand p e) :=
  moving_readOnly (readOnly_demand p e)

theorem moving_need (o : Option α) (e : VetkeysError) : Moving now (need o e) :=
  moving_readOnly (readOnly_need o e)

theorem moving_lift (r : Except VetkeysError α) : Moving now (lift r) :=
  moving_readOnly (readOnly_lift r)

theorem moving_read (f : VetkeysState → α) : Moving now (read f) := moving_readOnly (readOnly_read f)

theorem moving_consumeNonce (owner : PrincipalKey) (issuer : DeviceIdKey) (nonce : Nonce16)
    (expiryNs : Nat) : Moving now (consumeNonce owner issuer nonce expiryNs now) := by
  unfold consumeNonce
  refine Moving.bind (moving_read _) fun _ => Moving.bind (moving_readOnly (readOnly_expect _ _)) fun _ => ?_
  refine Moving.bind (moving_write fun _ => rfl) fun _ => Moving.bind (moving_demand _ _) fun _ => ?_
  exact Moving.bind (moving_readOnly (readOnly_assert _ _)) fun _ => moving_write fun _ => rfl

/-- A charge to a window, whatever it answers. -/
theorem moving_chargeRate {get : VetkeysState → StableMap PrincipalKey RegistrationWindow}
    {set : StableMap PrincipalKey RegistrationWindow → VetkeysState → VetkeysState}
    {charge : RegistrationWindow → Except Nat Unit × RegistrationWindow}
    {refusal : Nat → VetkeysError} {owner : PrincipalKey}
    (h : ∀ s, LimitMove now s (set (charged charge owner (get s)) s)) :
    Moving now (chargeRate get set charge refusal owner) := by
  intro s r t hx
  have hlift : ∀ (x : Except VetkeysError Unit) (v : VetkeysState), (lift x : Endpoint Unit).exec v =
      .ok (r, t) → t = v := fun x v hv => readOnly_lift x v r t hv
  have ht : t = set (charged charge owner (get s)) s := hlift _ _ hx
  rw [ht]
  exact .single (h s)

theorem moving_chargeRegistrations (owner : PrincipalKey) :
    Moving now (chargeRegistrations now owner) := moving_chargeRate fun _ => .register owner

theorem moving_chargeReplacements (owner : PrincipalKey) :
    Moving now (chargeReplacements now owner) := moving_chargeRate fun _ => .replace owner

theorem moving_chargeRevocationRate (owner : PrincipalKey) :
    Moving now (chargeRevocationRate now owner) := moving_chargeRate fun _ => .revoke owner

theorem moving_checkIssuer (owner : PrincipalKey) (signed : SignedApproval) :
    Moving now (checkIssuer owner signed now) := moving_readOnly (readOnly_checkIssuer owner signed)

theorem moving_consumeBootstrap (owner : PrincipalKey) :
    Moving now (consumeBootstrap owner now) := by
  unfold consumeBootstrap
  refine Moving.bind (moving_read _) fun _ => Moving.bind (moving_demand _ _) fun _ => ?_
  refine Moving.bind (moving_lift _) fun _ => Moving.bind (moving_write fun _ => rfl) fun _ => ?_
  exact moving_readOnly (readOnly_pure _)

theorem moving_approve (caller : PrincipalBytes) (args : RegisterArgs) :
    Moving now (approve D now caller args) := by
  unfold approve
  cases args.approval with
  | bootstrap => exact moving_consumeBootstrap _
  | device signed =>
    refine Moving.bind (moving_checkIssuer _ _) fun _ => Moving.bind (moving_lift _) fun _ => ?_
    exact Moving.bind (moving_consumeNonce _ _ _ _) fun _ => moving_readOnly (readOnly_pure _)

theorem moving_registerDevice (caller : PrincipalBytes) (args : RegisterArgs) :
    Moving now (registerDevice D now caller args) := by
  unfold registerDevice
  refine Moving.bind (moving_demand _ _) fun _ => Moving.bind (moving_chargeRegistrations _) fun _ => ?_
  refine Moving.bind (moving_readOnly (readOnly_checkNewDevice _ _)) fun _ => ?_
  exact Moving.bind (moving_approve _ _) fun _ => moving_write fun _ => rfl

theorem moving_revokeDevice (caller : PrincipalBytes) (deviceId : Bytes) (approval : SignedApproval) :
    Moving now (revokeDevice D now caller deviceId approval) := by
  unfold revokeDevice
  refine Moving.bind (moving_demand _ _) fun _ => Moving.bind (moving_chargeRevocationRate _) fun _ => ?_
  refine Moving.bind (moving_lift _) fun _ => Moving.bind (moving_checkIssuer _ _) fun _ => ?_
  refine Moving.bind (moving_lift _) fun _ => Moving.bind (moving_read _) fun _ => ?_
  refine Moving.bind (moving_need _ _) fun _ => Moving.bind (moving_demand _ _) fun _ => ?_
  exact Moving.bind (moving_consumeNonce _ _ _ _) fun _ => moving_write fun _ => rfl

theorem moving_replaceEnvelope (caller : PrincipalBytes) (deviceId newEnvelope : Bytes)
    (approval : SignedApproval) :
    Moving now (replaceEnvelope D now caller deviceId newEnvelope approval) := by
  unfold replaceEnvelope
  refine Moving.bind (moving_demand _ _) fun _ => Moving.bind (moving_chargeReplacements _) fun _ => ?_
  refine Moving.bind (moving_lift _) fun _ => Moving.bind (moving_demand _ _) fun _ => ?_
  refine Moving.bind (moving_demand _ _) fun _ => Moving.bind (moving_checkIssuer _ _) fun _ => ?_
  refine Moving.bind (moving_read _) fun _ => Moving.bind (moving_need _ _) fun _ => ?_
  refine Moving.bind (moving_lift _) fun _ => Moving.bind (moving_consumeNonce _ _ _ _) fun _ => ?_
  exact moving_write fun _ => rfl

theorem moving_setDeviceApprovalPolicy (caller : PrincipalBytes) (require : Bool)
    (approval : SignedApproval) :
    Moving now (setDeviceApprovalPolicy D now caller require approval) := by
  unfold setDeviceApprovalPolicy
  refine Moving.bind (moving_demand _ _) fun _ => Moving.bind (moving_chargeRevocationRate _) fun _ => ?_
  refine Moving.bind (moving_checkIssuer _ _) fun _ => Moving.bind (moving_lift _) fun _ => ?_
  exact Moving.bind (moving_consumeNonce _ _ _ _) fun _ => moving_write fun _ => rfl

theorem moving_requestDeviceApprovalPolicyClear (caller : PrincipalBytes) :
    Moving now (requestDeviceApprovalPolicyClear now caller) := by
  unfold requestDeviceApprovalPolicyClear
  refine Moving.bind (moving_demand _ _) fun _ => Moving.bind (moving_chargeRevocationRate _) fun _ => ?_
  refine Moving.bind (moving_read _) fun _ => Moving.bind (moving_need _ _) fun row => ?_
  cases row.pendingClearAtNs with
  | none => exact Moving.bind (moving_write fun _ => rfl) fun _ => moving_readOnly (readOnly_pure _)
  | some existing => exact moving_readOnly (readOnly_pure _)

theorem moving_authorizeReBootstrap (caller target : PrincipalBytes) (approval : SignedApproval) :
    Moving now (authorizeReBootstrap D now caller target approval) := by
  unfold authorizeReBootstrap
  refine Moving.bind (moving_demand _ _) fun _ => Moving.bind (moving_demand _ _) fun _ => ?_
  refine Moving.bind (moving_chargeRevocationRate _) fun _ => ?_
  refine Moving.bind (moving_checkIssuer _ _) fun _ => Moving.bind (moving_lift _) fun _ => ?_
  exact Moving.bind (moving_consumeNonce _ _ _ _) fun _ => moving_write fun _ => rfl

theorem answered_moves {x : Endpoint α} (hx : Moving now x) {f : Except VetkeysError α → Answer}
    (h : (answered x f s).state? = some t) : Moves now s t := by
  obtain ⟨r, hr⟩ := answered_ends h
  exact hx s r t hr

/-! ### The derives -/

/-- The state a message commits is reached by moves. -/
def MovesTo (now : Nat) (s : VetkeysState) (o : VetkeysOutcome) : Prop :=
  ∀ t, o.state? = some t → Moves now s t

section Derives
variable {caller : PrincipalBytes} {transportKey : Bytes} {admitted : Admitted} {live : Live}

theorem movesTo_reply (h : Moves now s t) {a : Answer} : MovesTo now s (.reply t a) := by
  intro u hu
  cases hu
  exact h

theorem movesTo_call (h : Moves now s t) {k : VetkeysTask} {q : Request} :
    MovesTo now s (.call t k q) := by
  intro u hu
  cases hu
  exact h

theorem movesTo_trap : MovesTo now s .trap := fun _ h => nomatch h

theorem movesTo_refuse (h : Moves now s t) (who : PrincipalKey) (e : VetkeysError) :
    MovesTo now s (refuseReleasing who admitted e t) := movesTo_reply (h.tail (.release who _))

theorem countRefusal_limitView (s : VetkeysState) (e : VetkeysError) :
    (s.countRefusal e).limitView = s.limitView := by
  cases e <;> rfl

theorem movesTo_dispatchDerive (h : Moves now s t) (firstDerive : Bool) :
    MovesTo now s (dispatchDerive now caller transportKey admitted firstDerive live t) := by
  unfold dispatchDerive
  cases live.readRefused with
  | some reason => exact movesTo_refuse h _ _
  | none =>
    have hfence := h.tail (.fence (PrincipalKey.new caller) admitted.reservationId firstDerive live)
    simp only
    generalize t.dispatchFence now (PrincipalKey.new caller) admitted.reservationId firstDerive
      live = fenced at hfence ⊢
    obtain ⟨r, u⟩ := fenced
    cases r with
    | error e => exact movesTo_refuse (hfence.tail (.frame (countRefusal_limitView u e))) _ _
    | ok _ => exact movesTo_call hfence

theorem movesTo_deriveAdmitted (h : Moves now s t) :
    MovesTo now s (deriveAdmitted now caller transportKey admitted live t) := by
  unfold deriveAdmitted
  split
  · exact movesTo_dispatchDerive h false
  · cases t.tokenCanister with
    | none => exact movesTo_refuse h _ _
    | some token => exact movesTo_call h

theorem movesTo_getEncryptedVetkey :
    MovesTo now s (getEncryptedVetkey D now caller transportKey live s) := by
  unfold getEncryptedVetkey
  cases checkDerive D caller transportKey live with
  | error e => exact movesTo_reply .refl
  | ok _ =>
    have hflight : Moves now s (s.preflightCall now caller).2 := .single (.preflight caller)
    simp only
    generalize s.preflightCall now caller = preflighted at hflight ⊢
    obtain ⟨r, t⟩ := preflighted
    cases r with
    | error e => exact movesTo_reply hflight
    | ok admitted => exact movesTo_deriveAdmitted hflight

theorem movesTo_eligibilityDecided :
    MovesTo now s (eligibilityDecided now caller transportKey admitted live s) := by
  unfold eligibilityDecided
  simp only
  cases Sightings.decide now (PrincipalKey.new caller) s.eligibilitySightings with
  | none => exact movesTo_trap
  | some p =>
    obtain ⟨outcome, table⟩ := p
    have htable : Moves now s {s with eligibilitySightings := table} := .frame rfl
    have hcounted : ∀ began, Moves now s
        (VetkeysState.countAgeRefusal began {s with eligibilitySightings := table}) :=
      fun _ => .frame rfl
    cases outcome with
    | admitted => exact movesTo_dispatchDerive htable true
    | inserted => exact movesTo_refuse (hcounted true) _ _
    | renewed => exact movesTo_refuse (hcounted true) _ _
    | notYet retryAfterNs => exact movesTo_refuse (hcounted false) _ _
    | anomalous retryAfterNs => exact movesTo_refuse (hcounted false) _ _

theorem movesTo_eligibilityAnswered (r : Reply) :
    MovesTo now s (eligibilityAnswered D now caller transportKey admitted r s) := by
  unfold eligibilityAnswered
  cases r.body with
  | balance amount =>
    simp only
    split
    · exact movesTo_refuse .refl _ _
    · exact movesTo_eligibilityDecided
  | rejected e => exact movesTo_refuse .refl _ _
  | key encryptedKey => exact movesTo_refuse .refl _ _

theorem mintTicket_limitView (now : Nat) (who : PrincipalKey) (s : VetkeysState) :
    (s.mintTicket now who).limitView = s.limitView := by
  unfold VetkeysState.mintTicket
  split <;> rfl

theorem establish_limitView {who : PrincipalKey} (h : s.establish now who = some t) :
    t.limitView = s.limitView := by
  obtain ⟨table, -, rfl⟩ := Option.map_eq_some_iff.1 h
  rfl

theorem movesTo_deriveAnswered (r : Reply) :
    MovesTo now s (deriveAnswered now caller admitted r s) := by
  unfold deriveAnswered
  cases r.body with
  | balance amount => exact movesTo_trap
  | rejected e => exact movesTo_trap
  | key encryptedKey =>
    have hfinal : Moves now s _ := .single (.finalize (PrincipalKey.new caller) admitted.reservationId)
    simp only
    generalize (s.admissionOf (PrincipalKey.new caller)).finalize now admitted.reservationId =
      finalized at hfinal ⊢
    obtain ⟨live, st⟩ := finalized
    cases live with
    | false => exact movesTo_reply hfinal
    | true =>
      have hminted := hfinal.tail (.frame (mintTicket_limitView now (PrincipalKey.new caller) _))
      simp only
      cases hestablish : ((s.putAdmission (PrincipalKey.new caller) st).mintTicket now
          (PrincipalKey.new caller)).establish now (PrincipalKey.new caller) with
      | none => exact movesTo_trap
      | some u => exact movesTo_reply (hminted.tail (.frame (establish_limitView hestablish)))

end Derives

/-! ### Messages and runs -/

theorem start_moves (i : Input) : MovesTo now s (start D now i s) := by
  intro t h
  cases i with
  | getEncryptedVetkey caller transportKey live => exact movesTo_getEncryptedVetkey t h
  | registerDevice caller args => exact answered_moves (moving_registerDevice _ _) h
  | revokeDevice caller deviceId approval => exact answered_moves (moving_revokeDevice _ _ _) h
  | replaceEnvelope caller deviceId newEnvelope approval =>
    exact answered_moves (moving_replaceEnvelope _ _ _ _) h
  | setDeviceApprovalPolicy caller require approval =>
    exact answered_moves (moving_setDeviceApprovalPolicy _ _ _) h
  | requestDeviceApprovalPolicyClear caller =>
    exact answered_moves (moving_requestDeviceApprovalPolicyClear _) h
  | authorizeReBootstrap caller target approval =>
    exact answered_moves (moving_authorizeReBootstrap _ _ _) h

theorem resume_moves (k : VetkeysTask) (r : Reply) : MovesTo now s (resume D now k r s) := by
  cases k with
  | eligibility caller transportKey admitted => exact movesTo_eligibilityAnswered r
  | derive caller admitted => exact movesTo_deriveAnswered r

/-- What of the limits and the time holds at the install, is kept by the moves and by an upgrade and
does not end with the time, holds in every state of every run. -/
theorem Moves.run {Inv : Nat → LimitView → Prop}
    (hfresh : ∀ now, Inv now VetkeysState.fresh.limitView)
    (hmove : ∀ {now s t}, LimitMove now s t → Inv now s.limitView → Inv now t.limitView)
    (hupgrade : ∀ {now v}, Inv now v → Inv now {v with meter := .default})
    (hlater : ∀ {now later v}, now ≤ later → Inv now v → Inv later v) {w : VetkeysWorld}
    (run : (system D).Reachable w) : Inv w.now w.state.limitView := by
  have hmoves : ∀ {now s t}, Moves now s t → Inv now s.limitView → Inv now t.limitView := by
    intro now s t h hs
    induction h with
    | refl => exact hs
    | tail _ hstep ih => exact hmove hstep ih
  refine run.invariant (I := fun w => Inv w.now w.state.limitView) (fun w h => ?_)
    fun w e w' _ hs _ hstep => ?_
  · obtain ⟨token, htoken⟩ := h.state_eq
    rw [htoken]
    exact hfresh w.now
  · cases hstep with
    | call hl =>
      obtain ⟨hstate, hnow⟩ := lands_state hl
      rw [hnow]
      exact hmoves (start_moves _ _ hstate) hs
    | callTrap => exact hs
    | reply hk hr hl =>
      obtain ⟨hstate, hnow⟩ := lands_state hl
      rw [hnow]
      exact hmoves (resume_moves _ _ _ hstate) hs
    | replyTrap hk hr htrap => exact hs
    | upgrade h =>
      cases h
      exact hupgrade hs
    | wait h => exact hlater h hs
    | elsewhere h => exact hs
    | others h =>
      obtain ⟨token, htoken⟩ := h
      rw [setTokenCanister_eq htoken]
      exact hs

end StshProtocol.Vetkeys
