import StshProtocol.Vesting.State

/-! The vesting canister among its callees: `claim`, `reconcile_claim`, the install and the
upgrade, over the token ledger, which carries a claim's transfer out at any time or never. -/
namespace StshProtocol.Vesting
open Foundation ShieldedPool

/-! ### `claim` -/

inductive ClaimDecision where
  | executed
  | notExecuted
  deriving DecidableEq, Repr

/-- What `claim` keeps over its await. -/
structure ClaimTask where
  beneficiary : PrincipalBytes
  claimable : Nat
  opMarker : TransferOutcomeMarker
  deriving DecidableEq, Repr

inductive Answer where
  | claim (result : Except String Nat)
  | reconcile (result : Except String Unit)

abbrev VestingOutcome : Type := Outcome VestingState ClaimTask LedgerCall Answer

def claimTransfer (beneficiary : PrincipalBytes) (claimable claimSeq createdAtTimeNs : Nat) :
    IcrcTransferArgs where
  fromSubaccount := none
  dest := ⟨beneficiary.toPrincipal, none⟩
  amount := claimable
  fee := none
  memo := some (claimMemo beneficiary claimSeq)
  createdAtTime := some createdAtTimeNs

/-- The schedule with the claim counted, where there is one. -/
def countClaimed (s : VestingState) (beneficiary : PrincipalBytes) (claimable : Nat) :
    Except String VestingState :=
  match s.schedules[principalKey beneficiary]? with
  | some schedule =>
    match checkedAdd128 schedule.claimed claimable with
    | some claimed => .ok (s.putSchedule beneficiary {schedule with claimed := claimed})
    | none => .error "vesting claimed overflow"
  | none => .ok s

/-- From the counted claim to the transfer. -/
def openClaim (now : Nat) (beneficiary : PrincipalBytes) (claimable : Nat) (s : VestingState) :
    VestingOutcome :=
  match s.nextClaimSeq beneficiary with
  | none => .trap
  | some claimSeq =>
    let opMarker : TransferOutcomeMarker :=
      {unknown := false, pendingAmount := some claimable, claimSeq := some claimSeq,
       createdAtTimeNs := some now}
    match s.tokenCanister with
    | none => .trap
    | some _ =>
      .call {s.putMarker beneficiary opMarker with
          operations := (beneficiary, claimSeq) :: s.operations}
        ⟨beneficiary, claimable, opMarker⟩
        (.icrc1Transfer (claimTransfer beneficiary claimable claimSeq now))

def claim (now : Nat) (caller : PrincipalBytes) (s : VestingState) : VestingOutcome :=
  if s.markerBlocksClaim caller then
    .reply s (.claim (.error
      "TransferOutcomeUnknown: previous claim transfer outcome requires reconciliation"))
  else
    let claimable := (s.schedules[principalKey caller]?.map (·.claimableAt now)).getD 0
    if claimable = 0 then .reply s (.claim (.error "Nothing claimable"))
    else
      match countClaimed s caller claimable with
      | .error e => .reply s (.claim (.error e))
      | .ok s' => openClaim now caller claimable s'

/-- The claim is resolved, and answered. -/
def resolveClaim (now : Nat) (t : ClaimTask) (resolution : ClaimResolution)
    (result : Except String Nat) (s : VestingState) : VestingOutcome :=
  match s.resolveMarkerWithTombstone t.beneficiary t.opMarker resolution now with
  | some s' => .reply s' (.claim result)
  | none => .trap

def claimAnswered (D : Deployment) (now : Nat) (t : ClaimTask) (r : LedgerReply)
    (s : VestingState) : VestingOutcome :=
  match r with
  | .transfer (.ok _) => resolveClaim now t .executed (.ok t.claimable) s
  | .transfer (.error (.duplicate _)) => resolveClaim now t .executed (.ok t.claimable) s
  | .transfer (.error e) =>
    resolveClaim now t .reverted (.error s!"icrc1_transfer rejected: {D.debugTransferError e}")
      (s.revertClaimed t.beneficiary t.claimable)
  -- A rejection; an answer that is no transfer result does not decode, which is one too.
  | .rejected e =>
    .reply (s.putMarker t.beneficiary {t.opMarker with unknown := true})
      (.claim (.error s!"TransferOutcomeUnknown: icrc1_transfer call failed: {e}"))
  | .fee _ | .balance _ =>
    .reply (s.putMarker t.beneficiary {t.opMarker with unknown := true})
      (.claim (.error "TransferOutcomeUnknown: icrc1_transfer call failed: failed to decode"))

/-! ### `reconcile_claim` -/

def reconcileStuck (now : Nat) (beneficiary : PrincipalBytes) (marker : TransferOutcomeMarker)
    (decision : ClaimDecision) (s : VestingState) : VestingOutcome :=
  let resolve (resolution : ClaimResolution) (s : VestingState) : VestingOutcome :=
    match s.resolveMarkerWithTombstone beneficiary marker resolution now with
    | some s' => .reply s' (.reconcile (.ok ()))
    | none => .trap
  match decision with
  | .executed => resolve .executed s
  | .notExecuted =>
    match marker.pendingAmount with
    | none =>
      .reply s (.reconcile (.error
        ("Legacy stuck marker carries no recorded pending amount; NotExecuted cannot safely " ++
          "revert without it. Verify externally and resolve via Executed, or correct the " ++
          "amount before reverting.")))
    | some amount => resolve .reverted (s.revertClaimed beneficiary amount)

def reconcileClaim (now : Nat) (caller beneficiary : PrincipalBytes) (decision : ClaimDecision)
    (s : VestingState) : VestingOutcome :=
  let refuse (e : String) : VestingOutcome := .reply s (.reconcile (.error e))
  match s.controller with
  | none => refuse "controller not configured"
  | some controller =>
    if caller ≠ controller then refuse "Only the controller may reconcile claims"
    else if ¬s.schedules.contains (principalKey beneficiary) then
      refuse "No vesting schedule for that beneficiary"
    else
      match s.transferOutcomeUnknown[principalKey beneficiary]? with
      | some marker =>
        if marker.unknown then reconcileStuck now beneficiary marker decision s
        else refuse "Schedule is not in a transport-unknown (stuck) state — nothing to reconcile"
      | none =>
        refuse "Schedule is not in a transport-unknown (stuck) state — nothing to reconcile"

/-! ### Install and upgrade -/

/-- The state before `init`. -/
def VestingState.fresh : VestingState :=
  ⟨∅, ∅, ∅, none, none, none, []⟩

structure InitArgs where
  tokenCanister : PrincipalBytes
  controller : PrincipalBytes
  schedules : List NewSchedule
  deriving DecidableEq, Repr

def init (D : Deployment) (now : Nat) (args : InitArgs) : Except String VestingState := do
  let s := VestingState.fresh.setCanisterRefs args.tokenCanister args.controller
  validateInitSchedules D args.schedules
  args.schedules.foldlM
    (fun s schedule => do return s.putSchedule schedule.beneficiary (← buildSchedule now schedule)) s

/-- The principal may not be bound as the controller. -/
def RebindRefused (D : Deployment) (token newController : PrincipalBytes) : Prop :=
  newController = .anonymous ∨ newController = D.self ∨ newController = token ∨
    ¬D.isController newController

instance (D : Deployment) (token p : PrincipalBytes) : Decidable (RebindRefused D token p) :=
  inferInstanceAs (Decidable (_ ∨ _ ∨ _ ∨ _))

/-- The upgrade argument's rebind of the controller, unless it is refused. -/
def rebindController (D : Deployment) (newController : PrincipalBytes) (s : VestingState) :
    Option VestingState :=
  s.canisterRefs.bind fun refs =>
    if RebindRefused D refs.1 newController then none
    else some (s.setCanisterRefs refs.1 newController)

def postUpgrade (D : Deployment) (rebind : Option PrincipalBytes) (s : VestingState) :
    Option VestingState := do
  let (token, controller) ← s.canisterRefs
  let s := {s with tokenCanister := some token, controller := some controller}
  let s ← match rebind with
    | none => some s
    | some newController => rebindController D newController s
  return s.sweepInflightMarkersOnUpgrade

/-! ### The canister and its ledger -/

inductive Input where
  | claim (caller : PrincipalBytes)
  | reconcileClaim (caller beneficiary : PrincipalBytes) (decision : ClaimDecision)
  deriving DecidableEq, Repr

/-- Besides its messages, an upgrade's argument may rebind the controller; what the upgrade
does besides is `upgrade`. -/
def canister (D : Deployment) :
    Canister VestingState Input ClaimTask LedgerCall LedgerReply Answer where
  start now
    | .claim caller => claim now caller
    | .reconcileClaim caller beneficiary decision => reconcileClaim now caller beneficiary decision
  resume := claimAnswered D
  cleanup _ s := s
  upgrade _ := postUpgrade D none
  others s s' := ∃ p, rebindController D p s = some s'

/-- A ledger that carries out any transfer it accepts; nothing here relies on its
deduplication. -/
def ledgerService : Service Ledger LedgerCall LedgerReply := Ledger.service fun _ _ => True

abbrev VestingWorld : Type := World VestingState Ledger ClaimTask

/-- A newly installed canister before a ledger without a transfer of its own. -/
def Installed (D : Deployment) (w : VestingWorld) : Prop :=
  (∃ args, init D w.now args = .ok w.state) ∧
    (∃ n, w.env = Ledger.idle (List.replicate n .foreign)) ∧ w.tasks = fun _ => none

def system (D : Deployment) : System VestingWorld (Event Input LedgerReply) :=
  (canister D).system ledgerService (Installed D)

end StshProtocol.Vesting
