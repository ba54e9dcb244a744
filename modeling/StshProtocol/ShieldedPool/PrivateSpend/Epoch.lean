import StshProtocol.Foundation.Thread
import StshProtocol.ShieldedPool.PrivateSpend.Segments

/-! The security epoch of a spend.

A message moves the security cells under a new epoch, or schedules an activation and leaves
the configuration alone (`Turns`). So the epoch that a spend captured stands for the
configuration it captured, until an activation that is due is scheduled over: that changes
neither the epoch nor what is pinned, and the activation that was due is never applied.
`Careful` runs are those without it. -/
namespace StshProtocol.ShieldedPool.PrivateSpend
open Foundation FeePolicy Handler

/-- What the epoch stands for. -/
def SecurityCells.configuration (c : SecurityCells) :
    (Nat × Bytes32 × Nat × String) × Option Principal × Bool :=
  ((c.pinnedCircuitVersion, c.pinnedVkHash, c.pinnedPoolVersion, c.pinnedProofSystem),
    c.verifierCanister, c.spendsPaused)

/-- What a message does to the security cells, unless it schedules an activation. -/
inductive Moves (c : SecurityCells) : SecurityCells → Prop where
  | keeps : Moves c c
  | bumps {c' : SecurityCells} (epoch : c'.securityEpoch = c.securityEpoch + 1) : Moves c c'

section Moves
variable {now : Nat} {c c' : SecurityCells}

theorem Moves.of_eq (h : c' = c) : Moves c c' := h ▸ .keeps

theorem Moves.eq_or_bumps (h : Moves c c') :
    c' = c ∨ c'.securityEpoch = c.securityEpoch + 1 := by
  cases h with
  | keeps => exact .inl rfl
  | bumps epoch => exact .inr epoch

theorem Activates.moves (h : Activates now c c') : Moves c c' := by
  rcases h with ⟨-, rfl⟩ | ⟨-, rfl⟩
  · exact .keeps
  · exact .bumps rfl

theorem Activates.spendsPaused (h : Activates now c c') : c'.spendsPaused = c.spendsPaused := by
  rcases h with ⟨-, rfl⟩ | ⟨-, rfl⟩ <;> rfl

/-- Where the epoch stands, nothing was activated. -/
theorem Activates.eq_of_epoch (h : Activates now c c') (he : c'.securityEpoch = c.securityEpoch) :
    c' = c ∧ ¬c.Overdue now := by
  rcases h with ⟨hnot, rfl⟩ | ⟨-, rfl⟩
  · exact ⟨rfl, hnot⟩
  · exact absurd he (Nat.succ_ne_self _)

end Moves

/-! ### The first segment -/

/-- What a spend takes from the cells it is admitted under. -/
structure Captured (who : Principal) (what : PrivateSpendArgs) (f : SpendFrame)
    (c : SecurityCells) : Prop where
  caller : f.caller = who
  args : f.args = what
  epoch : f.capturedEpoch = c.securityEpoch
  envelope : c.checkEnvelope what.envelope = .ok ()
  unpaused : c.spendsPaused = false

/-- How the first segment of a spend ends. -/
inductive Opens (now : Nat) (caller : Principal) (args : PrivateSpendArgs) (c : SecurityCells) :
    Except PoolError Next → SpendState → Prop where
  | refused {e : PoolError} {t : SpendState} (he : Early e)
      (hc : t.security = c ∨ Activates now c t.security) : Opens now caller args c (.error e) t
  | known {t : SpendState} (hc : t.security = c) : Opens now caller args c (.ok .done) t
  | waits {k : Cont} {t : SpendState} {f : SpendFrame} (hc : Activates now c t.security)
      (captured : Captured caller args f t.security) (hf : k.frame? = some f)
      (ha : ∀ a, k.admitted? = some a →
        k = .verify a ∧ t.security.verifierCanister = some a.verifier) :
      Opens now caller args c (.ok (.awaits k)) t

section Opens
variable {now : Nat} {caller : Principal} {args : PrivateSpendArgs} {D : Deployment}

theorem opens_error {e : PoolError} {t : SpendState} (he : Early e) :
    Opens now caller args t.security (.error e) t := .refused he (.inl rfl)

theorem Steady.opens {α : Type} {y : Spending α} {g : α → Spending Next} (hy : Steady y)
    (hg : ∀ b, Ends SpendState.security (Opens now caller args) (g b)) :
    Ends SpendState.security (Opens now caller args) (y >>= g) :=
  Quiet.bind_ends hy (fun _ _ => opens_error) hg

theorem steady_gate : Steady gate := by
  intro s r t h
  change gate s = .ok (r, t) at h
  cases hr : Recovery.recoveryGate s.toPool with
  | error q =>
    rw [gate, hr] at h
    cases h
  | ok o =>
    obtain ⟨p, r'⟩ := o
    rw [gate, hr] at h
    cases h
    refine ⟨rfl, ?_⟩
    rintro e rfl
    unfold Recovery.recoveryGate at hr
    split at hr
    · cases hr
    · obtain ⟨⟨p', remaining⟩, -, hr⟩ := bind_ok hr
      by_cases hz : remaining = 0
      · simp only [hz, if_pos] at hr
        cases hr
      · simp only [hz, if_false] at hr
        cases hr
        rintro ⟨⟩

theorem early_computeDeploymentConfigHash {w : Wiring} :
    ∀ e, computeDeploymentConfigHash D w = .error e → Early e := by
  intro e h
  unfold computeDeploymentConfigHash at h
  obtain ⟨token, merkle, nullifier, _, _, _⟩ := w
  cases token with
  | none => cases h; nofun
  | some token =>
    cases merkle with
    | none => cases h; nofun
    | some merkle =>
      cases nullifier with
      | none => cases h; nofun
      | some nullifier => cases h

theorem steady_assertDeploymentConfig (expected : Option Bytes32) :
    Steady (assertDeploymentConfig D expected) := by
  cases expected with
  | none => exact quiet_pure ()
  | some expected =>
    exact Quiet.bind (quiet_read _) fun _ =>
      Quiet.bind (quiet_lift early_computeDeploymentConfigHash) fun _ => quiet_demand _ nofun

theorem steady_enterTicket : Steady (enterTicket caller) :=
  Quiet.bind (quiet_read _) fun _ =>
  Quiet.bind (quiet_demand _ nofun) fun _ => quiet_write fun _ => rfl

theorem early_answerExisting {record : PendingSpend} :
    ∀ e, answerExisting caller record args = .error e → Early e := by
  intro e h
  unfold answerExisting at h
  split at h
  · split at h
    · unfold existingSpendAnswer at h
      split at h <;> cases h <;> nofun
    · cases h
      nofun
  · cases h
    nofun

theorem early_checkSizes : ∀ e, checkSizes args = .error e → Early e := by
  intro e h
  unfold checkSizes at h
  split at h
  · cases h
    nofun
  · obtain ⟨out, h⟩ := forM_fails h
    split at h <;> cases h
    nofun

theorem early_checkFee {p : GovernanceFeeParams} : ∀ e, checkFee args p = .error e → Early e := by
  intro e h
  unfold checkFee at h
  match hx : expectedPrivateSpendFee args.publicPayout p with
  | .error e' =>
    rw [hx] at h
    cases h
    exact early_expectedPrivateSpendFee e hx
  | .ok expected =>
    rw [hx] at h
    simp only [bind, Except.bind] at h
    split at h <;> cases h
    nofun

theorem early_checkShape : ∀ e, checkShape args = .error e → Early e := by
  intro e h
  unfold checkShape at h
  split at h
  · cases h
    nofun
  · split at h <;> cases h
    nofun

theorem early_checkOutputs {outputs : List Bytes32} :
    ∀ e, checkOutputs outputs = .error e → Early e := by
  intro e h
  unfold checkOutputs at h
  split at h
  · cases h
    nofun
  · split at h <;> cases h
    nofun

theorem early_privateSpendPublicAmount : ∀ e, privateSpendPublicAmount args = .error e → Early e := by
  intro e h
  unfold privateSpendPublicAmount at h
  split at h
  · split at h <;> cases h
    nofun
  · cases h

theorem early_privateSpendPrivateLiabilityDebit :
    ∀ e, privateSpendPrivateLiabilityDebit args = .error e → Early e := by
  intro e h
  unfold privateSpendPrivateLiabilityDebit at h
  rcases bind_fails h with h | ⟨amount, -, h⟩
  · exact early_privateSpendPublicAmount e h
  · split at h <;> cases h
    nofun

theorem early_buildSpendPublicSignals : ∀ e, buildSpendPublicSignals args = .error e → Early e := by
  intro e h
  unfold buildSpendPublicSignals at h
  split at h
  · rcases bind_fails h with h | ⟨amount, -, h⟩
    · exact early_privateSpendPublicAmount e h
    · rcases bind_fails h with h | ⟨u, -, h⟩
      · obtain ⟨signal, h⟩ := forM_fails h
        unfold checkCanonicalSignal at h
        split at h <;> cases h
        nofun
      · cases h
  · cases h
    nofun

theorem early_checkEnvelope {c : SecurityCells} {env : ProofEnvelope} :
    ∀ e, c.checkEnvelope env = .error e → Early e := by
  intro e h
  unfold SecurityCells.checkEnvelope at h
  repeat' split at h
  all_goals cases h
  all_goals nofun

/-- A validation that passes has activated what was due before it compared the envelope. -/
structure Validates (now : Nat) (env : ProofEnvelope) {α : Type} (c : SecurityCells)
    (r : Except PoolError α) (t : SpendState) : Prop where
  failed : ∀ e, r = .error e → Early e ∧ (t.security = c ∨ Activates now c t.security)
  passed : ∀ a, r = .ok a → Activates now c t.security ∧ t.security.checkEnvelope env = .ok ()

theorem validates_error {α : Type} {env : ProofEnvelope} {e : PoolError} {t : SpendState}
    (he : Early e) : Validates (α := α) now env t.security (.error e) t :=
  ⟨fun _ h => by cases h; exact ⟨he, .inl rfl⟩, fun _ h => nomatch h⟩

theorem Steady.validates {α β : Type} {env : ProofEnvelope} {y : Spending α} {g : α → Spending β}
    (hy : Steady y) (hg : ∀ b, Ends SpendState.security (Validates now env) (g b)) :
    Ends SpendState.security (Validates now env) (y >>= g) :=
  Quiet.bind_ends hy (fun _ _ => validates_error) hg

theorem validates_bind {α β : Type} {env : ProofEnvelope} {y : Spending α} {g : α → Spending β}
    (hy : Ends SpendState.security (Validates now env) y) (hg : ∀ b, Steady (g b)) :
    Ends SpendState.security (Validates now env) (y >>= g) := by
  refine Ends.bind hy hg (fun c e t h => ⟨fun _ he => ?_, nofun⟩) fun c b u r t h ht => ?_
  · cases he
    exact h.failed e rfl
  · obtain ⟨hc, henv⟩ := h.passed b rfl
    exact ⟨fun e he => ⟨ht.2 e he, .inr (ht.1 ▸ hc)⟩, fun _ _ => ⟨ht.1 ▸ hc, ht.1 ▸ henv⟩⟩

theorem validates_verifyProofEnvelope {env : ProofEnvelope} :
    Ends SpendState.security (Validates now env) (verifyProofEnvelope now env) := by
  intro s r t h
  match hm : (maybeActivatePendingVk now : Spending Unit).exec s with
  | .error q =>
    rw [verifyProofEnvelope, exec_bind_trap hm] at h
    cases h
  | .ok (r', u) =>
    obtain ⟨rfl, c, hc, rfl⟩ := maybeActivatePendingVk_ends hm
    rw [verifyProofEnvelope, exec_bind_ok hm, exec_bind_ok (exec_read _)] at h
    match hx : c.checkEnvelope env with
    | .error e =>
      rw [hx] at h
      cases h
      exact ⟨fun _ he => by cases he; exact ⟨early_checkEnvelope e hx, .inr hc⟩, nofun⟩
    | .ok () =>
      rw [hx] at h
      cases h
      exact ⟨nofun, fun _ _ => ⟨hc, hx⟩⟩

theorem validates_validatePrivateSpendStatic {params : GovernanceFeeParams} :
    Ends SpendState.security (Validates now args.envelope)
      (validatePrivateSpendStatic now args params) := by
  refine Steady.validates (quiet_lift early_checkSizes) fun _ => ?_
  refine validates_bind validates_verifyProofEnvelope fun _ => ?_
  exact Quiet.bind (quiet_lift early_checkFee) fun _ =>
    Quiet.bind (quiet_lift early_checkShape) fun _ =>
    Quiet.bind (quiet_lift early_buildSpendPublicSignals) fun _ =>
    Quiet.bind (quiet_lift early_checkOutputs) fun _ => quiet_pure _

/-- The frame carries the epoch its envelope was compared under. -/
structure Frames (now : Nat) (who : Principal) (what : PrivateSpendArgs) (c : SecurityCells)
    (r : Except PoolError SpendFrame) (t : SpendState) : Prop where
  validates : Validates now what.envelope c r t
  frame : ∀ f, r = .ok f → f.caller = who ∧ f.args = what ∧
    f.capturedEpoch = t.security.securityEpoch

theorem frames_error {c : SecurityCells} {e : PoolError} {t : SpendState} (he : Early e)
    (hc : t.security = c ∨ Activates now c t.security) : Frames now caller args c (.error e) t := by
  refine ⟨⟨fun _ h => ?_, fun _ h => (nomatch h)⟩, fun _ h => (nomatch h)⟩
  cases h
  exact ⟨he, hc⟩

theorem frames_captureSpend :
    Ends SpendState.security (Frames now caller args) (captureSpend now caller args) := by
  refine ends_read_bind fun s r t h => ?_
  match hv : (validatePrivateSpendStatic now args s.feeParams).exec s with
  | .error q =>
    rw [exec_bind_trap hv] at h
    cases h
  | .ok (.error e, u) =>
    rw [exec_bind_error hv] at h
    cases h
    have hfailed := (validates_validatePrivateSpendStatic _ _ _ hv).failed e rfl
    exact frames_error hfailed.1 hfailed.2
  | .ok (.ok signals, u) =>
    rw [exec_bind_ok hv] at h
    obtain ⟨hc, henv⟩ := (validates_validatePrivateSpendStatic _ _ _ hv).passed signals rfl
    match hd : privateSpendPrivateLiabilityDebit args with
    | .error e =>
      rw [hd] at h
      cases h
      exact frames_error (early_privateSpendPrivateLiabilityDebit e hd) (.inr hc)
    | .ok debit =>
      rw [exec_bind_ok (exec_lift hd), exec_bind_ok (exec_read _), exec_pure] at h
      cases h
      refine ⟨⟨fun _ he => (nomatch he), fun _ _ => ⟨hc, henv⟩⟩, fun f hf => ?_⟩
      cases hf
      exact ⟨rfl, rfl, rfl⟩

/-- A call that holds its slot answers for a spend that is known, or begins one. -/
theorem opens_admitSpend :
    Ends SpendState.security (fun c r t => c.spendsPaused = false → Opens now caller args c r t)
      (admitSpend now caller args) := by
  have he : ∀ e t, Early e → t.security.spendsPaused = false →
      Opens now caller args t.security (.error e) t := fun e t he _ => opens_error he
  refine Quiet.bind_ends (quiet_read _) he fun _ => ?_
  refine Quiet.bind_ends (quiet_demand _ nofun) he fun _ => ?_
  refine Quiet.bind_ends (quiet_read _) he fun existing => ?_
  cases existing with
  | some record =>
    refine Quiet.bind_ends (quiet_lift early_answerExisting) he fun _ => ?_
    exact ends_pure fun _ _ => .known rfl
  | none =>
    intro s r t h hp
    match hcap : (captureSpend now caller args).exec s with
    | .error q =>
      rw [exec_bind_trap hcap] at h
      cases h
    | .ok (.error e, u) =>
      rw [exec_bind_error hcap] at h
      cases h
      obtain ⟨hearly, hc⟩ := (frames_captureSpend _ _ _ hcap).validates.failed e rfl
      exact .refused hearly hc
    | .ok (.ok f, u) =>
      rw [exec_bind_ok hcap] at h
      obtain ⟨hvalid, hframe⟩ := frames_captureSpend _ _ _ hcap
      obtain ⟨hc, henv⟩ := hvalid.passed f rfl
      obtain ⟨hcaller, hargs, hepoch⟩ := hframe f rfl
      obtain ⟨hsame, hprep⟩ := prepares_ensurePayoutMemoKey (f := f) u r t h
      have captured : Captured caller args f t.security :=
        hsame ▸ ⟨hcaller, hargs, hepoch, henv, hc.spendsPaused.trans hp⟩
      match r, hprep with
      | .error e, hprep => exact .refused hprep (.inr (hsame ▸ hc))
      | .ok (.awaits k), ⟨hf, ha⟩ =>
        exact .waits (hsame ▸ hc) captured hf fun a hk => hsame ▸ ha a hk

/-- What comes behind the pause. -/
theorem opens_unpaused :
    Ends SpendState.security (fun c r t => c.spendsPaused = false → Opens now caller args c r t) (do
      gate
      assertDeploymentConfig D args.expectedDeploymentConfigHash
      enterTicket caller
      leaving (releaseSpendSlot caller) (admitSpend now caller args)) := by
  have he : ∀ e t, Early e → t.security.spendsPaused = false →
      Opens now caller args t.security (.error e) t := fun e t he _ => opens_error he
  refine Quiet.bind_ends steady_gate he fun _ => ?_
  refine Quiet.bind_ends (steady_assertDeploymentConfig _) he fun _ => ?_
  refine Quiet.bind_ends steady_enterTicket he fun _ => ?_
  refine ends_leaving opens_admitSpend fun c r t h hk hp => ?_
  cases h hp with
  | refused he hc => exact .refused he hc
  | known hc => exact .known hc
  | waits hc captured hf ha => exact absurd rfl (hk _)

theorem opens_privateSpend :
    Ends SpendState.security (Opens now caller args) (privateSpend D now caller args) := by
  refine Steady.opens (quiet_demand _ (by rintro ⟨⟩)) fun _ => ?_
  refine ends_read_bind fun s r t h => ?_
  by_cases hp : s.security.spendsPaused = false
  · rw [exec_bind_ok (exec_demand hp)] at h
    exact opens_unpaused s r t h hp
  · rw [demand, if_neg hp, exec_bind_error exec_fail] at h
    cases h
    exact opens_error (by rintro ⟨⟩)

end Opens

/-! ### One step -/

section Step
variable {now : Nat} {caller : Principal} {D : Deployment} {s s' : SpendState}

theorem quiet_assertOperatorController {ε : Type} {E : ε → Prop} :
    Quiet SpendState.security E (assertOperatorController caller : Message ε Unit) :=
  Quiet.bind (quiet_read _) fun _ => Quiet.bind (quiet_expect _ _) fun _ => quiet_assert _ _

theorem quiet_assertGovernanceOrOperator {ε : Type} {E : ε → Prop} :
    Quiet SpendState.security E (assertGovernanceOrOperator caller : Message ε Unit) :=
  Quiet.bind (quiet_read _) fun _ => Quiet.bind (quiet_expect _ _) fun _ =>
    Quiet.bind (quiet_read _) fun _ => Quiet.bind (quiet_expect _ _) fun _ => quiet_assert _ _

/-- A message that leaves the cells where they were, or under the next epoch. -/
abbrev Mover {ε α : Type} (x : Message ε α) : Prop :=
  Ends SpendState.security (fun c _ t => Moves c t.security) x

theorem Quiet.mover {ε α : Type} {E : ε → Prop} {x : Message ε α}
    (hx : Quiet SpendState.security E x) : Mover x :=
  hx.mono fun _ _ _ h => .of_eq h.1

theorem Quiet.bind_mover {ε α β : Type} {E : ε → Prop} {x : Message ε α} {f : α → Message ε β}
    (hx : Quiet SpendState.security E x) (hf : ∀ a, Mover (f a)) : Mover (x >>= f) :=
  Quiet.bind_ends hx (fun _ _ _ => .keeps) hf

theorem mover_setSpendsPaused {ε : Type} (paused : Bool) :
    Mover (setSpendsPaused paused : Message ε Unit) := by
  intro s r t h
  rw [setSpendsPaused, setSecurity, exec_bind_ok (exec_write _)] at h
  obtain ⟨-, rfl⟩ := bumpSecurityEpoch_ends h
  exact .bumps rfl

theorem mover_emergencyPauseSpends : Mover (emergencyPauseSpends caller) :=
  Quiet.bind_mover (E := fun _ => True) quiet_assertGovernanceOrOperator fun _ =>
    mover_setSpendsPaused true

theorem mover_unpauseSpends : Mover (unpauseSpends caller) :=
  Quiet.bind_mover (E := fun _ => True) quiet_assertOperatorController fun _ =>
    mover_setSpendsPaused false

theorem mover_emergencyDisableCircuitVersion (version : Nat) :
    Mover (emergencyDisableCircuitVersion caller version) :=
  Quiet.bind_mover (E := fun _ => True) quiet_assertOperatorController fun _ =>
    Quiet.bind_mover (E := fun _ => True) (quiet_read _) fun _ =>
    Quiet.bind_mover (E := fun _ => True) (quiet_demand _ trivial) fun _ => mover_setSpendsPaused true

theorem mover_privateSpend (args : PrivateSpendArgs) : Mover (privateSpend D now caller args) := by
  refine opens_privateSpend.mono fun c r t h => ?_
  cases h with
  | refused _ hc =>
    rcases hc with hc | hc
    · exact .of_eq hc
    · exact hc.moves
  | known hc => exact .of_eq hc
  | waits hc => exact hc.moves

theorem mover_setVerifierCanister (verifier : Principal) (hash : Bytes) :
    Mover (setVerifierCanister caller verifier hash) :=
  Quiet.mover <| Quiet.bind (E := fun _ => True) quiet_assertOperatorController fun _ =>
    Quiet.bind (quiet_demand _ trivial) fun _ =>
    Quiet.bind (quiet_read _) fun _ =>
    Quiet.bind (quiet_demand _ trivial) fun _ =>
    Quiet.bind (quiet_read _) fun _ =>
    Quiet.bind (quiet_demand _ trivial) fun _ =>
    Quiet.bind (quiet_write fun _ => rfl) fun _ => quiet_pure _

theorem mover_attestSetVerifier (verifier : Principal) (pin : Bytes32) (r : Reply) :
    Mover (attestSetVerifier D verifier pin r) := by
  refine Quiet.bind_mover (E := fun _ => True) (quiet_lift fun _ _ => trivial) fun _ => ?_
  refine Quiet.bind_mover (E := fun _ => True) (quiet_demand _ trivial) fun _ => ?_
  refine Quiet.bind_mover (E := fun _ => True) (quiet_read _) fun _ => ?_
  refine Quiet.bind_mover (E := fun _ => True) (quiet_demand _ trivial) fun _ => ?_
  intro s r t h
  rw [setSecurity, exec_bind_ok (exec_write _), exec_bind_ok (exec_write _)] at h
  obtain ⟨-, rfl⟩ := bumpSecurityEpoch_ends h
  exact .bumps rfl

theorem mover_settleSetVerifier (verifier : Principal) (pin : Bytes32) (r : Reply) :
    Mover (settleSetVerifier D verifier pin r) := by
  have done : Ends SpendState.security (fun c _ t => t.security = c)
      (pure Next.done : Spending Next) := ends_pure fun _ => rfl
  refine ends_leaving ?_ fun _ _ _ h _ => h
  exact Ends.bind (mover_attestSetVerifier verifier pin r) (fun _ => done) (fun _ _ _ h => h)
    fun _ _ _ _ _ h ht => ht ▸ h

/-- A segment that ends its call and leaves the cells alone. -/
def Closes (c : SecurityCells) (r : Except PoolError Next) (t : SpendState) : Prop :=
  t.security = c ∧
    match r with
    | .ok (.awaits _) => False
    | .ok _ => True
    | .error e => Early e

theorem Steady.closes {α : Type} {y : Spending α} {g : α → Spending Next} (hy : Steady y)
    (hg : ∀ b, Ends SpendState.security Closes (g b)) :
    Ends SpendState.security Closes (y >>= g) :=
  Quiet.bind_ends hy (fun _ _ he => ⟨rfl, he⟩) hg

theorem closes_failStaged {a : AdmittedSpend} {reason : String} {e : PoolError} (he : Early e) :
    Ends SpendState.security Closes (failStaged now a reason e) :=
  Steady.closes (quiet_write fun _ => rfl) fun _ =>
  Steady.closes (quiet_write fun _ => rfl) fun _ =>
  Steady.closes (quiet_write fun _ => rfl) fun _ => ends_fail fun _ => ⟨rfl, he⟩

/-- The registry's answer ends a spend. -/
theorem closes_settleInsert (a : AdmittedSpend) (r : Reply) :
    Ends SpendState.security Closes (settleInsert D now a r) := by
  unfold settleInsert
  split
  · refine Steady.closes (quiet_write fun _ => rfl) fun _ => ?_
    refine Steady.closes (quiet_write fun _ => rfl) fun _ => ends_pure fun _ => ⟨rfl, trivial⟩
  · refine closes_failStaged ?_
    split <;> nofun
  · dsimp only
    split
    · exact closes_failStaged nofun
    · have transferFailed : ∀ reason, Early (.transferFailed reason) := nofun
      refine Steady.closes (quiet_write fun _ => rfl) fun _ => ?_
      exact ends_fail fun _ => ⟨rfl, transferFailed _⟩

theorem Settles.moves {a : AdmittedSpend} {c : SecurityCells} {r : Except PoolError Next}
    {t : SpendState} (h : Settles now a c r t) : Moves c t.security := by
  cases h with
  | waits _ hc => exact .of_eq hc
  | reserves hc _ => exact hc.moves
  | refused _ hc =>
    rcases hc with hc | hc
    · exact .of_eq hc
    · exact hc.moves
  | aborted hc _ _ => exact hc.moves

/-- The segments behind the record. -/
theorem settles_continuation {a : AdmittedSpend} (k : Cont) (r : Reply) (hk : k.rechecks? = some a) :
    Ends SpendState.security (Settles now a) (continuation D now r k) := by
  have early : ∀ {reason}, Early (.transferFailed reason) := nofun
  cases k with
  | recheckNullifier a' n rest =>
    cases hk
    refine settles_holding (Steady.settles (quiet_lift (early_checkNullifierSpent r)) fun spent => ?_)
    split
    · exact settles_fail nofun
    · exact settles_recheckNullifiers rest
  | recheckFee a' payout =>
    cases hk
    exact settles_holding (Steady.settles (steady_recheckPayout (steady_checkPayoutFee payout r))
      fun _ => ends_pure fun _ => .waits rfl rfl)
  | recheckBalance a' payout =>
    cases hk
    exact settles_holding (Steady.settles (steady_recheckPayout (steady_checkPayoutBalance payout r))
      fun _ => settles_recheckRecord)
  | _ => cases hk

theorem settles_verify (a : AdmittedSpend) (r : Reply) :
    Ends SpendState.security (Settles now a) (continuation D now r (.verify a)) :=
  settles_holding ((settles_settleVerify r).mono fun _ _ _ h => h.1)

/-- The continuations fall into four kinds. -/
theorem Cont.kinds (k : Cont) : (∃ f, k.frame? = some f ∧ k.admitted? = none) ∨
    (∃ a, k = .verify a) ∨ (∃ a, k.rechecks? = some a) ∨ (∃ a, k = .insertBatch a) ∨
      ∃ verifier pin, k = .setVerifier verifier pin := by
  cases k with
  | verify a => exact .inr (.inl ⟨a, rfl⟩)
  | recheckNullifier a n rest => exact .inr (.inr (.inl ⟨a, rfl⟩))
  | recheckFee a payout => exact .inr (.inr (.inl ⟨a, rfl⟩))
  | recheckBalance a payout => exact .inr (.inr (.inl ⟨a, rfl⟩))
  | insertBatch a => exact .inr (.inr (.inr (.inl ⟨a, rfl⟩)))
  | setVerifier verifier pin => exact .inr (.inr (.inr (.inr ⟨verifier, pin, rfl⟩)))
  | _ => exact .inl ⟨_, rfl, rfl⟩

theorem Cont.admitted_of_rechecks {k : Cont} {a : AdmittedSpend} (h : k.rechecks? = some a) :
    k.admitted? = some a := by
  cases k with
  | recheckNullifier a' n rest => exact h
  | recheckFee a' payout => exact h
  | recheckBalance a' payout => exact h
  | _ => cases h

theorem Cont.frame_of_rechecks {k : Cont} {a : AdmittedSpend} (h : k.rechecks? = some a) :
    k.frame? = some a.frame := by
  cases k with
  | recheckNullifier a' n rest => cases h; rfl
  | recheckFee a' payout => cases h; rfl
  | recheckBalance a' payout => cases h; rfl
  | _ => cases h

theorem Cont.answer_of_frame {k : Cont} {f : SpendFrame} (h : k.frame? = some f) :
    k.answer = .spend := by
  cases k with
  | setVerifier verifier pin => cases h
  | _ => rfl

theorem closes_insertBatch (a : AdmittedSpend) (r : Reply) :
    Ends SpendState.security Closes (continuation D now r (.insertBatch a)) :=
  ends_leaving (ends_leaving (closes_settleInsert a r) fun _ _ _ h _ => h) fun _ _ _ h _ => h

theorem mover_continuation (k : Cont) (r : Reply) : Mover (continuation D now r k) := by
  rcases k.kinds with ⟨f, hf, ha⟩ | ⟨a, rfl⟩ | ⟨a, ha⟩ | ⟨a, rfl⟩ | ⟨verifier, pin, rfl⟩
  · exact (prepares_continuation k r hf ha).mono fun _ _ _ h => .of_eq h.1
  · exact (settles_verify a r).mono fun _ _ _ h => h.moves
  · exact (settles_continuation k r ha).mono fun _ _ _ h => h.moves
  · exact (closes_insertBatch a r).mono fun _ _ _ h => .of_eq h.1
  · exact mover_settleSetVerifier verifier pin r

/-! ### Schedules -/

/-- An activation that governance may schedule. -/
structure Schedules {ε : Type} (w : SpendWorld ε) (e : Event Input Reply) : Prop where
  event : ∃ caller version hash active cutoff,
    e = .call (.scheduleVkActivation caller version hash active cutoff) ∧
      w.state.wiring.staking = some caller ∧ w.now < active ∧ active < cutoff

theorem atomic_scheduleVkActivation (version : Nat) (hash : Bytes32) (active cutoff : Nat) :
    (scheduleVkActivation now caller version hash active cutoff).Atomic := by
  have governance : (assertGovernanceController caller : Message String Unit).ReadOnly :=
    (readOnly_read _).bind fun stored => (readOnly_expect stored _).bind fun _ => readOnly_assert _ _
  exact governance.bind_atomic fun _ => (readOnly_demand _ _).bind_atomic fun _ =>
    (readOnly_demand _ _).bind_atomic fun _ => (sure_write _).atomic

/-- It is taken from governance alone, for a time to come, and moves no pin and no epoch. -/
theorem scheduleVkActivation_ends {version : Nat} {hash : Bytes32} {active cutoff : Nat}
    {r : Except String Unit}
    (h : (scheduleVkActivation now caller version hash active cutoff).exec s = .ok (r, s')) :
    s'.security = s.security ∨ ((s.wiring.staking = some caller ∧ now < active ∧ active < cutoff) ∧
      s'.security.securityEpoch = s.security.securityEpoch ∧
      s'.security.configuration = s.security.configuration) := by
  cases r with
  | error e => exact .inl (congrArg _ (atomic_scheduleVkActivation _ _ _ _ _ _ _ h))
  | ok u =>
    simp only [scheduleVkActivation, assertGovernanceController, setSecurity, bind_ok_iff,
      read_ok_iff, expect_ok_iff, assert_ok_iff, demand_ok_iff, write_ok_iff, and_assoc,
      exists_and_left, exists_eq_left, exists_const] at h
    obtain ⟨_, ⟨governance, hstaking, rfl, rfl⟩, hactive, hcutoff, rfl⟩ := h
    exact .inr ⟨⟨hstaking, hactive, hcutoff⟩, rfl, rfl⟩

/-- What a step does to the cells. -/
inductive Turns {ε : Type} (w : SpendWorld ε) (e : Event Input Reply) (w' : SpendWorld ε) : Prop where
  | moves (h : Moves w.state.security w'.state.security) (now : w.now ≤ w'.now) : Turns w e w'
  | schedules (h : Schedules w e)
      (epoch : w'.state.security.securityEpoch = w.state.security.securityEpoch)
      (configuration : w'.state.security.configuration = w.state.security.configuration) :
      Turns w e w'

theorem conclude_moves {answer : Except PoolError Unit → Answer} {x : Spending Next} (hx : Mover x)
    (h : (conclude D answer x s).state? = some s') : Moves s.security s'.security := by
  unfold conclude at h
  split at h
  · cases h
  all_goals
    next hexec =>
    cases h
    exact hx _ _ _ hexec

theorem respond_state {x : Message String Unit} (h : (respond x s).state? = some s') :
    ∃ r, x.exec s = .ok (r, s') := by
  unfold respond at h
  split at h
  · cases h
  · next r t hexec =>
    cases h
    exact ⟨r, hexec⟩

theorem cleanup_security (k : Cont) (s : SpendState) : (cleanup k s).security = s.security := by
  cases k <;> rfl

theorem upgrade_security (h : upgrade s = some s') : s'.security = s.security := by
  unfold upgrade at h
  split at h
  · split at h <;> cases h
    rfl
  · cases h

theorem steps_turn {ε : Type} {S : Service ε Request Reply} {w w' : SpendWorld ε}
    {e : Event Input Reply} (h : (canister D).Step S w e w') : Turns w e w' := by
  cases h with
  | @call _ i h =>
    have hs := h.state
    have hnow := Nat.le_of_eq h.now.symm
    cases i with
    | privateSpend caller args => exact .moves (conclude_moves (mover_privateSpend args) hs) hnow
    | scheduleVkActivation caller version hash active cutoff =>
      obtain ⟨r, hexec⟩ := respond_state hs
      rcases scheduleVkActivation_ends hexec with hsame | ⟨⟨hstaking, hactive, hcutoff⟩, he, hc⟩
      · exact .moves (.of_eq hsame) hnow
      · exact .schedules ⟨_, _, _, _, _, rfl, hstaking, hactive, hcutoff⟩ he hc
    | setVerifierCanister caller verifier hash =>
      exact .moves (conclude_moves (mover_setVerifierCanister verifier hash) hs) hnow
    | emergencyPauseSpends caller =>
      obtain ⟨r, hexec⟩ := respond_state hs
      exact .moves (mover_emergencyPauseSpends _ _ _ hexec) hnow
    | unpauseSpends caller =>
      obtain ⟨r, hexec⟩ := respond_state hs
      exact .moves (mover_unpauseSpends _ _ _ hexec) hnow
    | emergencyDisableCircuitVersion caller version =>
      obtain ⟨r, hexec⟩ := respond_state hs
      exact .moves (mover_emergencyDisableCircuitVersion version _ _ _ hexec) hnow
  | callTrap _ => exact .moves .keeps (Nat.le_refl _)
  | @reply _ t k r _ _ h =>
    exact .moves (conclude_moves (mover_continuation k r) h.state) (Nat.le_of_eq h.now.symm)
  | @replyTrap t k r _ _ _ => exact .moves (.of_eq (cleanup_security k w.state)) (Nat.le_refl _)
  | @upgrade s h =>
    have hup : upgrade w.state = some s := h
    exact .moves (.of_eq (upgrade_security hup)) (Nat.le_refl _)
  | wait h => exact .moves .keeps h
  | elsewhere _ => exact .moves .keeps (Nat.le_refl _)
  | others h =>
    exact .moves (.of_eq h) (Nat.le_refl _)

end Step

end StshProtocol.ShieldedPool.PrivateSpend
