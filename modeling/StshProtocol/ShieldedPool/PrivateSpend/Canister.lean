import StshProtocol.ShieldedPool.PrivateSpend.Flow

/-! The pool as `private_spend` runs in it: its own segments, the endpoints that move the
security cells, and the rest of the pool, which leaves these cells alone. -/
namespace StshProtocol.ShieldedPool.PrivateSpend
open Foundation Handler

inductive Input where
  | privateSpend (caller : Principal) (args : PrivateSpendArgs)
  | scheduleVkActivation (caller : Principal) (newVersion : Nat) (newVkHash : Bytes32)
      (activationTimestampNs oldKeyCutoffNs : Nat)
  | setVerifierCanister (caller verifier : Principal) (expectedVkHash : Bytes)
  | emergencyPauseSpends (caller : Principal)
  | unpauseSpends (caller : Principal)
  | emergencyDisableCircuitVersion (caller : Principal) (circuitVersion : Nat)

/-- `promoting` is a spend whose nullifiers are in the registry. -/
inductive Answer where
  | spend (result : Except PoolError Unit)
  | promoting
  | verifier (result : Except PoolError Unit)
  | config (result : Except String Unit)

abbrev SpendOutcome : Type := Outcome SpendState Cont Request Answer

/-- A segment of a call. -/
def conclude (D : Deployment) (answer : Except PoolError Unit → Answer) (x : Spending Next)
    (s : SpendState) : SpendOutcome :=
  match x.exec s with
  | .error _ => .trap
  | .ok (.error e, s') => .reply s' (answer (.error e))
  | .ok (.ok (.awaits k), s') => .call s' k (k.request D)
  | .ok (.ok .promotes, s') => .reply s' .promoting
  | .ok (.ok .done, s') => .reply s' (answer (.ok ()))

/-- A call that does not await. -/
def respond (x : Message String Unit) (s : SpendState) : SpendOutcome :=
  match x.exec s with
  | .error _ => .trap
  | .ok (r, s') => .reply s' (.config r)

def start (D : Deployment) (now : Nat) : Input → SpendState → SpendOutcome
  | .privateSpend caller args => conclude D .spend (privateSpend D now caller args)
  | .scheduleVkActivation caller version hash activation cutoff =>
    respond (scheduleVkActivation now caller version hash activation cutoff)
  | .setVerifierCanister caller verifier hash =>
    conclude D .verifier (setVerifierCanister caller verifier hash)
  | .emergencyPauseSpends caller => respond (emergencyPauseSpends caller)
  | .unpauseSpends caller => respond (unpauseSpends caller)
  | .emergencyDisableCircuitVersion caller version =>
    respond (emergencyDisableCircuitVersion caller version)

/-- A spend whose record is written holds its slot and the guard on its nullifiers. -/
def holding (a : AdmittedSpend) (x : Spending Next) : Spending Next :=
  leaving (releaseSpendSlot a.frame.caller) (leaving (dropNullifierGuard a.guarded) x)

/-- The segment behind an await. -/
def continuation (D : Deployment) (now : Nat) (r : Reply) : Cont → Spending Next
  | .memoKey f boot => leaving (releaseSpendSlot f.caller) do
    provisionMemoKey boot r
    precheckPrivateSpend now f
  | .precheckNullifier f c _ rest => leaving (releaseSpendSlot f.caller) do
    let spent ← lift (checkNullifierSpent D r)
    demand (spent = false) .nullifierAlreadySpent
    precheckNullifiers now f c rest
  | .precheckFee f c payout => leaving (releaseSpendSlot f.caller) do
    checkPayoutFee D payout r
    pure (.awaits (.precheckBalance f c payout))
  | .precheckBalance f c payout => leaving (releaseSpendSlot f.caller) do
    checkPayoutBalance D payout r
    requireActiveDevice now f c
  | .device f c _ => leaving (releaseSpendSlot f.caller) do
    lift (mapDeviceCheck r)
    attestVerifier now f c
  | .attest f c verifier pin => leaving (releaseSpendSlot f.caller) do
    attested D verifier pin r
    recordSpend now f c verifier
  | .verify a => holding a (settleVerify D now a r)
  | .recheckNullifier a _ rest => holding a do
    let spent ← lift (checkNullifierSpent D r)
    if spent then
      failBeforeStateChange now a.frame.args.spendId
        "nullifier spent by a concurrent call during verification" .nullifierAlreadySpent
    else
      recheckNullifiers now a rest
  | .recheckFee a payout => holding a do
    recheckPayout D now a (checkPayoutFee D payout r)
    pure (.awaits (.recheckBalance a payout))
  | .recheckBalance a payout => holding a do
    recheckPayout D now a (checkPayoutBalance D payout r)
    recheckRecord now a
  | .insertBatch a => holding a (settleInsert D now a r)
  | .setVerifier verifier pin => settleSetVerifier D verifier pin r

/-- Who is answered when a suspended call ends. -/
def Cont.answer : Cont → Except PoolError Unit → Answer
  | .setVerifier _ _ => .verifier
  | _ => .spend

def resume (D : Deployment) (now : Nat) (k : Cont) (r : Reply) (s : SpendState) : SpendOutcome :=
  conclude D k.answer (continuation D now r k) s

/-- What the guards of a suspended call do when its continuation traps. -/
def cleanup : Cont → SpendState → SpendState
  | .memoKey f _, s | .precheckNullifier f _ _ _, s | .precheckFee f _ _, s
  | .precheckBalance f _ _, s | .device f _ _, s | .attest f _ _ _, s => releaseSpendSlot f.caller s
  | .verify a, s => releaseSpendSlot a.frame.caller
      (dropNullifierGuard a.guarded (releaseVerifySlot a.frame.caller s))
  | .recheckNullifier a _ _, s | .recheckFee a _, s | .recheckBalance a _, s
  | .insertBatch a, s => releaseSpendSlot a.frame.caller (dropNullifierGuard a.guarded s)
  | .setVerifier _ _, s => s

/-- The heap of a module that was just loaded, under the next boot. -/
def reboot (s : SpendState) : SpendState :=
  {s with payouts.boot := s.payouts.boot + 1
          spends.inflight := ∅
          spends.verifyPending := ∅
          admission.inflight := ∅
          admission.pruneCursor := none
          attestation := .unattested
          setVerifierInProgress := false
          accounting := s.accounting.reload}

/-- The checkpoint brings the security cells back as they were. -/
def upgrade (s : SpendState) : Option SpendState :=
  if s.payouts.boot + 1 ≤ u64Max then
    match Recovery.runFirstRecoveryChunk Recovery.upgradeScanChunk (reboot s).toPool with
    | .error _ => none
    | .ok p => some {reboot s with toPool := p}
  else
    none

/-- The rest of the pool writes no security cell. -/
def LeavesSecurity (s s' : SpendState) : Prop := s'.security = s.security

def canister (D : Deployment) : Canister SpendState Input Cont Request Reply Answer where
  start := start D
  resume := resume D
  cleanup := cleanup
  upgrade _ := upgrade
  others := LeavesSecurity

abbrev SpendWorld (ε : Type) : Type := World SpendState ε Cont

end StshProtocol.ShieldedPool.PrivateSpend
