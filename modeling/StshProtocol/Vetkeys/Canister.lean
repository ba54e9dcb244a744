import StshProtocol.Vetkeys.Devices
import StshProtocol.Vetkeys.Fence
import StshProtocol.Vetkeys.Sightings

/-! The key canister among its callees.

A derive awaits twice: a principal's first asks the token ledger for its balance, and every one
asks the platform for the key. Between, other messages run; a reply comes at any later time or
never. The endpoints of devices and the upgrade make up the rest. -/
namespace StshProtocol.Vetkeys
open Foundation ShieldedPool Vesting

/-- What the platform tells during a message: the cycles the canister may spend, what a derive
costs, and why the key manager refuses the read, if it does. -/
structure Live where
  liquid : Nat
  cost : Except String Nat
  readRefused : Option String

/-- What a derive keeps over each of its awaits. -/
inductive VetkeysTask where
  | eligibility (caller : PrincipalBytes) (transportKey : Bytes) (admitted : Admitted)
  | derive (caller : PrincipalBytes) (admitted : Admitted)
  deriving DecidableEq, Repr

inductive Request where
  | balanceOf (token account : PrincipalBytes)
  | deriveKey (caller : PrincipalBytes) (transportKey : Bytes)
  deriving DecidableEq, Repr

inductive ReplyBody where
  | balance (amount : Nat)
  | key (encryptedKey : Bytes)
  | rejected (e : String)
  deriving DecidableEq, Repr

/-- A reply, and what the platform tells in the message that takes it up. -/
structure Reply where
  body : ReplyBody
  live : Live

structure EncryptedVetKeyReply where
  encryptedKey : Bytes
  remaining : Nat
  deriving DecidableEq, Repr

inductive Answer where
  | key (result : Except VetkeysError EncryptedVetKeyReply)
  | done (result : Except VetkeysError Unit)
  | cleared (result : Except VetkeysError Nat)

abbrev VetkeysOutcome : Type := Outcome VetkeysState VetkeysTask Request Answer

/-! ### Reservations of a principal -/

namespace VetkeysState

/-- A principal without a row has an empty window. -/
def admissionOf (s : VetkeysState) (who : PrincipalKey) : AdmissionState :=
  s.admission[who]?.getD .default

def putAdmission (s : VetkeysState) (who : PrincipalKey) (st : AdmissionState) : VetkeysState :=
  {s with admission := s.admission.insert who st}

/-- The reservations an admission finds stale are charged, and noted. -/
def noteCharged (nowNs : Nat) (who : PrincipalKey) (s : VetkeysState) : List (PrincipalKey × Nat) :=
  ((s.admissionOf who).staleDispatched nowNs).map (fun r => (who, r.id)) ++ s.history.charged

/-- The meter and the quota, and what they reserve and charge noted. -/
def preflightCall (nowNs : Nat) (caller : PrincipalBytes) (s : VetkeysState) :
    Except VetkeysError Admitted × VetkeysState :=
  let who := PrincipalKey.new caller
  match preflight nowNs caller s.meter (s.admissionOf who) with
  | (.error (.meter rejection), meter, st) =>
    (.error (.rateLimited rejection.message), {s.putAdmission who st with meter := meter})
  | (.error (.quota retryAfterNs), meter, st) =>
    let history := {s.history with charged := s.noteCharged nowNs who}
    (.error (.derivationQuotaExceeded retryAfterNs),
      {s.putAdmission who st with meter := meter, history := history})
  | (.ok admitted, meter, st) =>
    let history := {s.history with
      admitted := (who, admitted.reservationId) :: s.history.admitted
      charged := s.noteCharged nowNs who}
    (.ok admitted, {s.putAdmission who st with meter := meter, history := history})

/-- The reservation is given back, if its call is not out. -/
def releaseCall (who : PrincipalKey) (id : Nat) (s : VetkeysState) : VetkeysState :=
  let out := (s.admissionOf who).release id
  let released := if out.1 then (who, id) :: s.history.released else s.history.released
  {s.putAdmission who out.2 with history := {s.history with released := released}}

/-- The reservation's other phase and the fleet's charge, at once. -/
def commitDispatch (nowNs : Nat) (who : PrincipalKey) (id : Nat) (firstDerive : Bool)
    (st : AdmissionState) (s : VetkeysState) : VetkeysState :=
  let win := (s.globalDeriveBudgetWindow.pruneWindow nowNs).recordDispatch nowNs who firstDerive
  let history := {s.history with dispatched := ⟨who, id, nowNs⟩ :: s.history.dispatched}
  {s.putAdmission who st with globalDeriveBudgetWindow := win, history := history}

def dispatchFence (nowNs : Nat) (who : PrincipalKey) (id : Nat) (firstDerive : Bool) (live : Live)
    (s : VetkeysState) : Except VetkeysError Unit × VetkeysState :=
  match resolveLiveCost live.liquid live.cost with
  | .error e => (.error e, s)
  | .ok liveCost =>
    let st := s.admissionOf who
    match fenceDecide nowNs id live.liquid liveCost st s.globalDeriveBudgetWindow who with
    | .refuse e => (.error e, s.putAdmission who st)
    | .commit =>
      match st.revalidateForDispatch id with
      | none => (.error .admissionLapsed, s.putAdmission who st)
      | some st' => (.ok (), s.commitDispatch nowNs who id firstDerive st')

/-- The counter of refusals for the fleet's budget. -/
def countRefusal (e : VetkeysError) (s : VetkeysState) : VetkeysState :=
  match e with
  | .globalDerivationBudgetExceeded _ =>
    {s with stats := {s.stats with
      refusalsBudgetTotal := satAdd64 s.stats.refusalsBudgetTotal 1}}
  | _ => s

/-- The counters of a sighting that refuses, `began` telling whether its clock started. -/
def countAgeRefusal (began : Bool) (s : VetkeysState) : VetkeysState :=
  let recorded := s.stats.sightingsRecordedTotal
  {s with stats := {s.stats with
    sightingsRecordedTotal := if began then satAdd64 recorded 1 else recorded
    ageRefusalsTotal := satAdd64 s.stats.ageRefusalsTotal 1}}

end VetkeysState

/-! ### `get_encrypted_vetkey` -/

/-- A refusal before the dispatch gives the reservation back. -/
def refuseReleasing (who : PrincipalKey) (admitted : Admitted) (e : VetkeysError)
    (s : VetkeysState) : VetkeysOutcome :=
  .reply (s.releaseCall who admitted.reservationId) (.key (.error e))

/-- From the admitted and eligible call to the dispatch. -/
def dispatchDerive (nowNs : Nat) (caller : PrincipalBytes) (transportKey : Bytes)
    (admitted : Admitted) (firstDerive : Bool) (live : Live) (s : VetkeysState) : VetkeysOutcome :=
  let who := PrincipalKey.new caller
  match live.readRefused with
  | some reason => refuseReleasing who admitted (.notAuthorized reason) s
  | none =>
    match s.dispatchFence nowNs who admitted.reservationId firstDerive live with
    | (.error e, s') => refuseReleasing who admitted e (s'.countRefusal e)
    | (.ok (), s') => .call s' (.derive caller admitted) (.deriveKey caller transportKey)

/-- What is checked before the meter: who calls, the cycles, and the transport key. -/
def checkDerive (D : Deployment) (caller : PrincipalBytes) (transportKey : Bytes) (live : Live) :
    Except VetkeysError Unit := do
  if caller = .anonymous then throw .anonymousCaller
  let liveCost ← resolveLiveCost live.liquid live.cost
  if ¬cycleFloorAdmits live.liquid liveCost then
    throw (.cycleFloorReached live.liquid (satAdd128 liveCost deriveCycleFloorCycles))
  if ¬D.validTransportKey transportKey then
    throw (.invalidTransportKey
      "invalid transport public key encoding (expected a 48-byte BLS12-381 G1 point)")

/-- From the admitted call to the balance query, which only a first derive makes. -/
def deriveAdmitted (nowNs : Nat) (caller : PrincipalBytes) (transportKey : Bytes)
    (admitted : Admitted) (live : Live) (s : VetkeysState) : VetkeysOutcome :=
  if s.established.contains (PrincipalKey.new caller) then
    dispatchDerive nowNs caller transportKey admitted false live s
  else
    match s.tokenCanister with
    | none => refuseReleasing (PrincipalKey.new caller) admitted (.eligibilityCheckUnavailable
        ("the token canister is not configured on this deployment, so first-derive eligibility " ++
          "cannot be established — this is retryable infrastructure state, not a decision about " ++
          "this principal")) s
    | some token => .call s (.eligibility caller transportKey admitted) (.balanceOf token caller)

def getEncryptedVetkey (D : Deployment) (nowNs : Nat) (caller : PrincipalBytes)
    (transportKey : Bytes) (live : Live) (s : VetkeysState) : VetkeysOutcome :=
  match checkDerive D caller transportKey live with
  | .error e => .reply s (.key (.error e))
  | .ok () =>
    match s.preflightCall nowNs caller with
    | (.error e, s') => .reply s' (.key (.error e))
    | (.ok admitted, s') => deriveAdmitted nowNs caller transportKey admitted live s'

/-- The balance is at or above the floor: the sightings decide. -/
def eligibilityDecided (nowNs : Nat) (caller : PrincipalBytes) (transportKey : Bytes)
    (admitted : Admitted) (live : Live) (s : VetkeysState) : VetkeysOutcome :=
  let who := PrincipalKey.new caller
  match Sightings.decide nowNs who s.eligibilitySightings with
  | none => .trap
  | some (outcome, table) =>
    let s := {s with eligibilitySightings := table}
    match outcome with
    | .admitted => dispatchDerive nowNs caller transportKey admitted true live s
    | .inserted | .renewed =>
      refuseReleasing who admitted (.eligibilityAgeNotMet eligibilityMinAgeNs)
        (s.countAgeRefusal true)
    | .notYet retryAfterNs | .anomalous retryAfterNs =>
      refuseReleasing who admitted (.eligibilityAgeNotMet retryAfterNs) (s.countAgeRefusal false)

def eligibilityAnswered (D : Deployment) (nowNs : Nat) (caller : PrincipalBytes)
    (transportKey : Bytes) (admitted : Admitted) (r : Reply) (s : VetkeysState) : VetkeysOutcome :=
  let refuse (e : VetkeysError) := refuseReleasing (PrincipalKey.new caller) admitted e s
  match r.body with
  | .balance amount =>
    if amount < eligibilityMinBalanceE8s then
      refuse (.principalNotEligible
        ("a first key derivation requires a token balance of at least " ++
          s!"{eligibilityMinBalanceE8s} e8s"))
    else eligibilityDecided nowNs caller transportKey admitted r.live s
  | .rejected e =>
    refuse (.eligibilityCheckUnavailable s!"the eligibility balance query failed ({e}) — retryable")
  | .key _ =>
    refuse (.eligibilityCheckUnavailable
      ("the eligibility balance query returned an undecodable reply " ++
        s!"({D.undecodable}) — retryable"))

namespace VetkeysState

/-- A ticket, if the way of tickets is open, in the place of any before. -/
def mintTicket (nowNs : Nat) (who : PrincipalKey) (s : VetkeysState) : VetkeysState :=
  if s.bootstrapPathOpen who nowNs then
    {s with
      bootstrapTickets := s.bootstrapTickets.insert who (.mint nowNs)
      marks := .minted who nowNs :: s.marks}
  else s

/-- The principal is established, and its sighting cleared; `none` is a trap. -/
def establish (nowNs : Nat) (who : PrincipalKey) (s : VetkeysState) : Option VetkeysState :=
  (Sightings.clearOnSuccess who s.eligibilitySightings).map fun table =>
    {s with established := s.established.insert who nowNs, eligibilitySightings := table}

end VetkeysState

def deriveAnswered (nowNs : Nat) (caller : PrincipalBytes) (admitted : Admitted) (r : Reply)
    (s : VetkeysState) : VetkeysOutcome :=
  let who := PrincipalKey.new caller
  match r.body with
  | .key encryptedKey =>
    match (s.admissionOf who).finalize nowNs admitted.reservationId with
    | (false, st) => .reply (s.putAdmission who st) (.key (.error .admissionLapsed))
    | (true, st) =>
      match ((s.putAdmission who st).mintTicket nowNs who).establish nowNs who with
      | none => .trap
      | some s' => .reply s' (.key (.ok ⟨encryptedKey, admitted.remaining⟩))
  -- The key manager expects the platform's answer to be one.
  | .balance _ | .rejected _ => .trap

/-! ### The canister -/

inductive Input where
  | getEncryptedVetkey (caller : PrincipalBytes) (transportKey : Bytes) (live : Live)
  | registerDevice (caller : PrincipalBytes) (args : RegisterArgs)
  | revokeDevice (caller : PrincipalBytes) (deviceId : Bytes) (approval : SignedApproval)
  | replaceEnvelope (caller : PrincipalBytes) (deviceId newEnvelope : Bytes)
      (approval : SignedApproval)
  | setDeviceApprovalPolicy (caller : PrincipalBytes) (require : Bool) (approval : SignedApproval)
  | requestDeviceApprovalPolicyClear (caller : PrincipalBytes)
  | authorizeReBootstrap (caller target : PrincipalBytes) (approval : SignedApproval)

/-- A message that does not await, answered. -/
def answered {α : Type} (x : Endpoint α) (f : Except VetkeysError α → Answer) (s : VetkeysState) :
    VetkeysOutcome :=
  match x.exec s with
  | .error _ => .trap
  | .ok (r, s') => .reply s' (f r)

def start (D : Deployment) (nowNs : Nat) : Input → VetkeysState → VetkeysOutcome
  | .getEncryptedVetkey caller transportKey live =>
    getEncryptedVetkey D nowNs caller transportKey live
  | .registerDevice caller args => answered (registerDevice D nowNs caller args) .done
  | .revokeDevice caller deviceId approval =>
    answered (revokeDevice D nowNs caller deviceId approval) .done
  | .replaceEnvelope caller deviceId newEnvelope approval =>
    answered (replaceEnvelope D nowNs caller deviceId newEnvelope approval) .done
  | .setDeviceApprovalPolicy caller require approval =>
    answered (setDeviceApprovalPolicy D nowNs caller require approval) .done
  | .requestDeviceApprovalPolicyClear caller =>
    answered (requestDeviceApprovalPolicyClear nowNs caller) .cleared
  | .authorizeReBootstrap caller target approval =>
    answered (authorizeReBootstrap D nowNs caller target approval) .done

def resume (D : Deployment) (nowNs : Nat) : VetkeysTask → Reply → VetkeysState → VetkeysOutcome
  | .eligibility caller transportKey admitted =>
    eligibilityAnswered D nowNs caller transportKey admitted
  | .derive caller admitted => deriveAnswered nowNs caller admitted

/-- An upgrade forgets what is on the heap. -/
def postUpgrade (s : VetkeysState) : VetkeysState := {s with meter := .default, stats := ⟨0, 0, 0⟩}

/-- The upgrade's argument, in the place of the token ledger there was. -/
def setTokenCanister (s : VetkeysState) (token : PrincipalBytes) : Option VetkeysState :=
  if token.asSlice = [] then none else some {s with tokenCanister := some token}

/-- Besides its messages, an upgrade's argument may set the token ledger; what the upgrade does
besides is `upgrade`. -/
def canister (D : Deployment) :
    Canister VetkeysState Input VetkeysTask Request Reply Answer where
  start := start D
  resume := resume D
  cleanup _ s := s
  upgrade _ s := some (postUpgrade s)
  others s s' := ∃ token, setTokenCanister s token = some s'

/-- A ledger and a platform of which nothing is assumed. -/
def anyCallees : Service Unit Request Reply where
  accept _ _ _ _ := True
  answer _ _ _ := True
  move _ _ := True

abbrev VetkeysWorld : Type := World VetkeysState Unit VetkeysTask

def init (token : Option PrincipalBytes) : Option VetkeysState :=
  match token with
  | none => some .fresh
  | some token => setTokenCanister .fresh token

/-- A newly installed canister. -/
def Installed (w : VetkeysWorld) : Prop :=
  (∃ token, init token = some w.state) ∧ w.tasks = fun _ => none

theorem setTokenCanister_eq {s s' : VetkeysState} {token : PrincipalBytes}
    (h : setTokenCanister s token = some s') : s' = {s with tokenCanister := some token} := by
  unfold setTokenCanister at h
  split at h
  · exact nomatch h
  · exact (Option.some.inj h).symm

/-- A newly installed canister holds nothing, but may know its token ledger. -/
theorem Installed.state_eq {w : VetkeysWorld} (h : Installed w) :
    ∃ token, w.state = {VetkeysState.fresh with tokenCanister := token} := by
  obtain ⟨⟨token, htoken⟩, -⟩ := h
  cases token with
  | none => exact ⟨none, (Option.some.inj htoken).symm⟩
  | some token => exact ⟨some token, setTokenCanister_eq htoken⟩

def system (D : Deployment) : System VetkeysWorld (Event Input Reply) :=
  (canister D).system anyCallees Installed

end StshProtocol.Vetkeys
