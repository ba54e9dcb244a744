import Mathlib.Data.List.Chain
import StshProtocol.FeePolicy.Params
import StshProtocol.Foundation.Handler

/-! The fee-governance state of the pool: its setter, its eager cell and its upgrade.

The epoch of the parameters is kept in three places: in the parameters, which reach the
next version through the checkpoint, in the eager cell, and in its mirror on the heap.
An upgrade compares the first two and fills the mirror from the cell. -/
namespace StshProtocol.ShieldedPool.FeeGovernance
open Foundation FeePolicy Handler

/-- Why a message is rolled back. -/
inductive Trap where
  | controllerUnset
  | notController
  | noCheckpoint
  | sentinelSurvived
  | epochDisagreement
  deriving DecidableEq, Repr

/-- The words of the eager cell, each a `u128`. -/
structure Words where
  lastUpdateNs : Nat
  paramsEpoch : Nat
  launchActivated : Nat
  deriving DecidableEq, Repr

/-- What `pre_upgrade` writes of this. -/
structure Checkpoint where
  controller : Principal
  params : GovernanceFeeParams

/-- The heap, then the eager cell, which starts at its sentinel, and the checkpoint. -/
@[ext] structure FeeState where
  params : GovernanceFeeParams
  lastFeeUpdateNs : Nat
  feeParamsEpoch : Nat
  launchFeeActivated : Bool
  controller : Option Principal
  cell : Option Words
  checkpoint : Option Checkpoint

abbrev Endpoint (α : Type) : Type := Handler Trap FeeState String α

/-- The cell and its mirrors move together. -/
def commitFeeGovernance (lastUpdateNs paramsEpoch : Nat) (launchActivated : Bool) (s : FeeState) :
    FeeState :=
  {s with cell := some ⟨lastUpdateNs, paramsEpoch, launchActivated.toNat⟩
          lastFeeUpdateNs := lastUpdateNs
          feeParamsEpoch := paramsEpoch
          launchFeeActivated := launchActivated}

/-- `u64::try_from`. -/
def narrow64 (word : Nat) : Option Nat := if word ≤ u64Max then some word else none

def decodeFlag : Nat → Option Bool
  | 0 => some false
  | 1 => some true
  | _ => none

/-- A word that does not fit its field is refused, as the sentinel is. -/
def decodeFeeGovernance (cell : Option Words) : Option (Nat × Nat × Bool) := do
  let words ← cell
  let lastUpdateNs ← narrow64 words.lastUpdateNs
  let paramsEpoch ← narrow64 words.paramsEpoch
  let launchActivated ← decodeFlag words.launchActivated
  some (lastUpdateNs, paramsEpoch, launchActivated)

/-! ### The decision -/

def enforcedMaxFeeChangeBpsPerUpdate : Nat := 1000

/-- The fields whose increases are bounded. -/
def advertisedFields : List Field :=
  [⟨"protocol_shielding_fee_stsh", GovernanceFeeParams.protocolShieldingFeeStsh⟩,
    ⟨"protocol_unshielding_fee_stsh", GovernanceFeeParams.protocolUnshieldingFeeStsh⟩,
    ⟨"protocol_private_spend_fee_stsh", GovernanceFeeParams.protocolPrivateSpendFeeStsh⟩,
    ⟨"shield_flat_minimum_fee_e8s", GovernanceFeeParams.effectiveShieldFlatMinimumFeeE8s⟩,
    ⟨"unshield_flat_minimum_fee_e8s", GovernanceFeeParams.effectiveUnshieldFlatMinimumFeeE8s⟩,
    ⟨"shield_fee_bps", GovernanceFeeParams.effectiveShieldFeeBps⟩,
    ⟨"unshield_fee_bps", GovernanceFeeParams.effectiveUnshieldFeeBps⟩]

def boundOverflow (f : String) : String :=
  braces "FeeChangeBoundArithmeticOverflow" s!"field: \"{f}\""

/-- A field may rise by a tenth of itself, or by one. -/
def checkIncrease (new cur : GovernanceFeeParams) (f : Field) : Except String Unit :=
  let c := f.value cur
  let r := f.value new
  if r ≤ c then
    .ok ()
  else
    match checkedMul128 c enforcedMaxFeeChangeBpsPerUpdate with
    | none => .error (boundOverflow f.name)
    | some scaled =>
      match checkedAdd128 c (max (scaled / 10000) 1) with
      | none => .error (boundOverflow f.name)
      | some ceiling =>
        if ceiling < r then
          .error (braces "FeeChangeExceedsAdvertisedBound"
            s!"field: \"{f.name}\", current: {c}, requested: {r}, max_increase_bps: 1000")
        else
          .ok ()

def validateAdvertisedIncreaseBound (new cur : GovernanceFeeParams) : Except String Unit :=
  advertisedFields.forM (checkIncrease new cur)

/-- The movement caps and the cooldown, which the first update of all is spared. -/
def validateRoutine (params current : GovernanceFeeParams) (lastUpdateNs nowNs : Nat) :
    Except String Unit := do
  (params.validateFeeChangeFrom current).mapError FeePolicyError.debug
  validateAdvertisedIncreaseBound params current
  if nowNs - lastUpdateNs < feeUpdateCooldownNs then
    .error (FeePolicyError.feeUpdateCooldownActive lastUpdateNs nowNs feeUpdateCooldownNs).debug
  else
    .ok ()

/-- The epoch is the canister's to choose; one that is supplied must be it. -/
def nextEpoch (currentEpoch : Nat) (supplied : Option Nat) : Except String Nat :=
  if currentEpoch + 1 ≤ u64Max then
    match supplied with
    | none => .ok (currentEpoch + 1)
    | some e =>
      if e = currentEpoch + 1 then .ok (currentEpoch + 1)
      else .error (FeePolicyError.invalidParamsEpoch e (currentEpoch + 1)).debug
  else
    .error "fee params epoch space exhausted"

/-- What the parameters advertise is what is enforced. -/
def validateMaxFeeChange (params : GovernanceFeeParams) : Except String Unit :=
  if params.maxFeeChangeBpsPerUpdate ≠ enforcedMaxFeeChangeBpsPerUpdate then
    .error (braces "MaxFeeChangeFieldMismatch"
      s!"configured: {params.maxFeeChangeBpsPerUpdate}, required: 1000")
  else
    .ok ()

def decideGovernanceFeeUpdate (params current : GovernanceFeeParams) (bootstrap : Bool)
    (currentEpoch lastUpdateNs nowNs : Nat) : Except String GovernanceFeeParams := do
  params.validateSplitBps.mapError FeePolicyError.debug
  params.validateStakingPosture.mapError FeePolicyError.debug
  params.validateFeeBounds.mapError FeePolicyError.debug
  validateMaxFeeChange params
  (if bootstrap then .ok () else validateRoutine params current lastUpdateNs nowNs)
  let epoch ← nextEpoch currentEpoch params.paramsEpoch
  .ok {params with paramsEpoch := some epoch}

/-! ### Endpoints -/

def assertOperatorController (caller : Principal) : Endpoint Unit := do
  let stored ← read fun s => s.controller
  let controller ← expect stored .controllerUnset
  assert (caller = controller) .notController

def setGovernanceFeeParams (nowNs : Nat) (caller : Principal) (params : GovernanceFeeParams) :
    Endpoint Unit := do
  assertOperatorController caller
  let decision ← read fun s => decideGovernanceFeeUpdate params s.params (!s.launchFeeActivated)
    s.feeParamsEpoch s.lastFeeUpdateNs nowNs
  let accepted ← lift decision
  write (commitFeeGovernance nowNs accepted.effectiveParamsEpoch true)
  write fun s => {s with params := accepted}

/-- The statics of a module that was just loaded, over stable memory. -/
def reboot (s : FeeState) : FeeState :=
  {s with params := .launchDefaults
          lastFeeUpdateNs := 0
          feeParamsEpoch := 0
          launchFeeActivated := false
          controller := none}

def FeeState.fresh : FeeState where
  params := .launchDefaults
  lastFeeUpdateNs := 0
  feeParamsEpoch := 0
  launchFeeActivated := false
  controller := none
  cell := none
  checkpoint := none

def init (controller : Principal) : FeeState :=
  commitFeeGovernance 0 0 false {FeeState.fresh with controller := some controller}

def preUpgrade : Endpoint Unit := do
  let stored ← read fun s => s.controller
  let controller ← expect stored .controllerUnset
  write fun s => {s with checkpoint := some ⟨controller, s.params⟩}

def postUpgrade : Endpoint Unit := do
  let stored ← read fun s => s.checkpoint
  let state ← expect stored .noCheckpoint
  write fun s => {s with controller := some state.controller, params := state.params}
  let decoded ← read fun s => decodeFeeGovernance s.cell
  let mirrors ← expect decoded .sentinelSurvived
  let inCheckpoint ← read fun s => s.params.effectiveParamsEpoch
  assert (inCheckpoint = mirrors.2.1) .epochDisagreement
  write fun s => {s with lastFeeUpdateNs := mirrors.1
                         feeParamsEpoch := mirrors.2.1
                         launchFeeActivated := mirrors.2.2}

def upgrade : Endpoint Unit := do
  preUpgrade
  write reboot
  postUpgrade

end StshProtocol.ShieldedPool.FeeGovernance

/-! Runs of the fee governance.

A run installs the pool and then takes updates and upgrades under a clock that does not
go back. What it has accepted is kept, latest first; the state is that of the latest
update (`Holds`), and each accepted update but the first follows the one before it
within the caps and after the cooldown (`Follows`). -/
namespace StshProtocol.ShieldedPool.FeeGovernance
open Foundation FeePolicy Handler

inductive Call where
  | setGovernanceFeeParams (params : GovernanceFeeParams)
  | upgrade

structure Message where
  now : Nat
  caller : Principal
  call : Call

inductive Answer where
  | set (r : Except String Unit)
  | upgraded
  | trapped (t : Trap)
  deriving DecidableEq

/-- The message ends: what it wrote is committed, unless it trapped. -/
def respond (reply : Except String Unit → Answer) (s : FeeState)
    (r : Except Trap (Except String Unit × FeeState)) : Answer × FeeState :=
  match r with
  | .ok (a, t) => (reply a, t)
  | .error trap => (.trapped trap, s)

def step (m : Message) (s : FeeState) : Answer × FeeState :=
  match m.call with
  | .setGovernanceFeeParams params =>
    respond .set s ((setGovernanceFeeParams m.now m.caller params).exec s)
  | .upgrade => respond (fun _ => .upgraded) s (upgrade.exec s)

/-- An accepted update: its time, whether it was the exempt one, what it stored. -/
structure Update where
  now : Nat
  bootstrap : Bool
  params : GovernanceFeeParams
  deriving DecidableEq

/-- The update a message made, if it made one. -/
def updates (m : Message) (s : FeeState) : List Update :=
  match (step m s).1 with
  | .set (.ok _) => [⟨m.now, !s.launchFeeActivated, (step m s).2.params⟩]
  | _ => []

/-- The clock, the updates accepted so far, latest first, and the state they led to. -/
inductive Run (controller : Principal) : Nat → List Update → FeeState → Prop where
  | installed (now : Nat) : Run controller now [] (init controller)
  | step {clock : Nat} {log : List Update} {s : FeeState} (run : Run controller clock log s)
      (m : Message) (clockOn : clock ≤ m.now) (clock64 : m.now ≤ u64Max) :
      Run controller m.now (updates m s ++ log) (step m s).2

/-! ### One update -/

/-- How far one update moves: each field up by a tenth or by one, rates down by a hundred
points, amounts down to half. -/
structure Moves (old new : GovernanceFeeParams) : Prop where
  raised : ∀ f ∈ advertisedFields, f.value new ≤ f.value old + max 1 (f.value old / 10)
  loweredRates : ∀ f ∈ GovernanceFeeParams.rateFields,
    f.value old ≤ f.value new + maxBpsChangePerUpdate
  loweredAmounts : ∀ f ∈ GovernanceFeeParams.amountFields, f.value old ≤ 2 * f.value new

/-- What the decision accepts. -/
structure Accepts (current : GovernanceFeeParams) (bootstrap : Bool)
    (currentEpoch lastUpdateNs nowNs : Nat) (accepted : GovernanceFeeParams) : Prop where
  bounds : WithinBounds accepted
  routine : bootstrap = false →
    Moves current accepted ∧ lastUpdateNs + feeUpdateCooldownNs ≤ nowNs
  epoch : accepted.paramsEpoch = some (currentEpoch + 1)
  epoch64 : currentEpoch + 1 ≤ u64Max

variable {current params accepted : GovernanceFeeParams} {f : Field} {s t : FeeState}

theorem mapError_ok {ε ε' α : Type} {x : Except ε α} {g : ε → ε'} {a : α}
    (h : x.mapError g = .ok a) : x = .ok a := by
  cases x with
  | error e => exact nomatch h
  | ok b => exact congrArg _ (Except.ok.inj h)

theorem checkIncrease_ok (h : checkIncrease params current f = .ok ()) :
    f.value params ≤ f.value current + max 1 (f.value current / 10) := by
  unfold checkIncrease checkedMul128 checkedAdd128 at h
  simp only at h
  split at h
  · next hle => omega
  · split at h
    · exact nomatch h
    · next scaled hscaled =>
      split at hscaled
      · cases hscaled
        split at h
        · exact nomatch h
        · next ceiling hceiling =>
          split at hceiling
          · cases hceiling
            split at h
            · exact nomatch h
            · next hin =>
              rw [enforcedMaxFeeChangeBpsPerUpdate] at hin
              omega
          · exact nomatch hceiling
      · exact nomatch hscaled

theorem validateRoutine_ok {lastUpdateNs nowNs : Nat}
    (h : validateRoutine params current lastUpdateNs nowNs = .ok ()) :
    Moves current params ∧ lastUpdateNs + feeUpdateCooldownNs ≤ nowNs := by
  unfold validateRoutine at h
  obtain ⟨_, hchange, h⟩ := bind_ok h
  obtain ⟨_, hraised, h⟩ := bind_ok h
  obtain ⟨hrates, hamounts⟩ := lowered_of_ok (mapError_ok hchange)
  refine ⟨⟨fun f hf => checkIncrease_ok (forM_ok hraised f hf), hrates, hamounts⟩, ?_⟩
  have hpos : 0 < feeUpdateCooldownNs := by decide
  split at h
  · exact nomatch h
  · next hcool => omega

/-- Stamping the epoch moves no fee. -/
theorem value_stamp (e : Option Nat) (hf : f ∈ advertisedFields ∨
    f ∈ GovernanceFeeParams.rateFields ∨ f ∈ GovernanceFeeParams.amountFields) :
    f.value {params with paramsEpoch := e} = f.value params := by
  simp only [advertisedFields, GovernanceFeeParams.rateFields, GovernanceFeeParams.amountFields,
    GovernanceFeeParams.flatMinimumFields, GovernanceFeeParams.privateSpendFeeField,
    List.cons_append, List.nil_append, List.mem_cons, List.not_mem_nil, or_false] at hf
  rcases hf with (rfl | rfl | rfl | rfl | rfl | rfl | rfl) | (rfl | rfl) | (rfl | rfl | rfl) <;>
    rfl

theorem withinBounds_stamp (h : WithinBounds params) (e : Option Nat) :
    WithinBounds {params with paramsEpoch := e} where
  rates := fun f hf => (value_stamp e (.inr (.inl hf))).symm ▸ h.rates f hf
  flatMinimums := fun f hf =>
    (value_stamp e (.inr (.inr (List.mem_append_left _ hf)))).symm ▸ h.flatMinimums f hf
  privateSpend := h.privateSpend
  cooldown := h.cooldown
  split := h.split

theorem Moves.stamp (h : Moves current params) (e : Option Nat) :
    Moves current {params with paramsEpoch := e} where
  raised := fun f hf => (value_stamp e (.inl hf)).symm ▸ h.raised f hf
  loweredRates := fun f hf => (value_stamp e (.inr (.inl hf))).symm ▸ h.loweredRates f hf
  loweredAmounts := fun f hf =>
    (value_stamp e (.inr (.inr hf))).symm ▸ h.loweredAmounts f hf

theorem nextEpoch_ok {currentEpoch epoch : Nat} {supplied : Option Nat}
    (h : nextEpoch currentEpoch supplied = .ok epoch) :
    epoch = currentEpoch + 1 ∧ currentEpoch + 1 ≤ u64Max := by
  unfold nextEpoch at h
  split at h
  · next hfits =>
    split at h
    · exact ⟨(Except.ok.inj h).symm, hfits⟩
    · split at h
      · exact ⟨(Except.ok.inj h).symm, hfits⟩
      · exact nomatch h
  · exact nomatch h

theorem accepts_of_ok {bootstrap : Bool} {currentEpoch lastUpdateNs nowNs : Nat}
    (h : decideGovernanceFeeUpdate params current bootstrap currentEpoch lastUpdateNs nowNs =
      .ok accepted) :
    Accepts current bootstrap currentEpoch lastUpdateNs nowNs accepted := by
  unfold decideGovernanceFeeUpdate at h
  obtain ⟨_, hsplit, h⟩ := bind_ok h
  obtain ⟨_, -, h⟩ := bind_ok h
  obtain ⟨_, hbounds, h⟩ := bind_ok h
  obtain ⟨_, -, h⟩ := bind_ok h
  obtain ⟨_, hroutine, h⟩ := bind_ok h
  obtain ⟨epoch, hepoch, h⟩ := bind_ok h
  cases h
  obtain ⟨rfl, hfits⟩ := nextEpoch_ok hepoch
  refine ⟨withinBounds_stamp (withinBounds_of_ok (mapError_ok hsplit) (mapError_ok hbounds)) _, ?_, rfl,
    hfits⟩
  rintro rfl
  obtain ⟨hmoves, hcool⟩ := validateRoutine_ok hroutine
  exact ⟨hmoves.stamp _, hcool⟩

/-! ### One message -/

theorem readOnly_assertOperatorController (caller : Principal) :
    (assertOperatorController caller).ReadOnly :=
  (readOnly_read _).bind fun stored => by
    cases stored with
    | none => exact readOnly_trap _
    | some controller => exact readOnly_assert _ _

theorem atomic_setGovernanceFeeParams (nowNs : Nat) (caller : Principal)
    (params : GovernanceFeeParams) : (setGovernanceFeeParams nowNs caller params).Atomic :=
  (readOnly_assertOperatorController caller).bind_atomic fun _ =>
    (readOnly_read _).bind_atomic fun _ =>
      (readOnly_lift _).bind_atomic fun _ =>
        ((sure_write _).bind fun _ => sure_write _).atomic

theorem assertOperatorController_ok_iff {caller : Principal} {u : Unit} :
    (assertOperatorController caller).exec s = .ok (.ok u, t) ↔ s.controller = some caller ∧ t = s := by
  simp only [assertOperatorController, bind_ok_iff, read_ok_iff, expect_ok_iff, assert_ok_iff,
    and_assoc, exists_and_left, exists_eq_left]
  constructor
  · rintro ⟨controller, hcontroller, rfl, rfl⟩
    exact ⟨hcontroller, rfl⟩
  · rintro ⟨hcontroller, rfl⟩
    exact ⟨caller, hcontroller, rfl, rfl⟩

theorem setGovernanceFeeParams_ok {nowNs : Nat} {caller : Principal}
    (h : (setGovernanceFeeParams nowNs caller params).exec s = .ok (.ok (), t)) :
    s.controller = some caller ∧ ∃ accepted, Accepts s.params (!s.launchFeeActivated)
      s.feeParamsEpoch s.lastFeeUpdateNs nowNs accepted ∧
      t = {commitFeeGovernance nowNs (s.feeParamsEpoch + 1) true s with params := accepted} := by
  simp only [setGovernanceFeeParams, assertOperatorController_ok_iff, bind_ok_iff, read_ok_iff,
    lift_ok_iff, write_ok_iff, and_assoc, exists_and_left, exists_eq_left, exists_const] at h
  obtain ⟨hcontroller, accepted, hdecide, rfl⟩ := h
  have haccepts := accepts_of_ok hdecide
  refine ⟨hcontroller, accepted, haccepts, ?_⟩
  rw [GovernanceFeeParams.effectiveParamsEpoch, haccepts.epoch, Option.getD_some]

/-! ### Runs -/

/-- An update and the one before it. -/
structure Follows (later earlier : Update) : Prop where
  routine : later.bootstrap = false
  cooldown : earlier.now + feeUpdateCooldownNs ≤ later.now
  moves : Moves earlier.params later.params
  epoch : later.params.effectiveParamsEpoch = earlier.params.effectiveParamsEpoch + 1

/-- The exempt updates. -/
def bootstraps (log : List Update) : Nat := log.countP fun u => u.bootstrap

/-- The state is that of the latest update, or of the installation. -/
def Latest (log : List Update) (s : FeeState) : Prop :=
  match log with
  | [] => s.launchFeeActivated = false
  | u :: _ => s.launchFeeActivated = true ∧ s.params = u.params ∧ s.lastFeeUpdateNs = u.now

structure Holds (controller : Principal) (log : List Update) (s : FeeState) : Prop where
  controller : s.controller = some controller
  cell : s.cell = some ⟨s.lastFeeUpdateNs, s.feeParamsEpoch, s.launchFeeActivated.toNat⟩
  lastUpdate64 : s.lastFeeUpdateNs ≤ u64Max
  epoch64 : s.feeParamsEpoch ≤ u64Max
  stored : s.params.effectiveParamsEpoch = s.feeParamsEpoch
  epoch : s.feeParamsEpoch = log.length
  latest : Latest log s
  bounds : ∀ u ∈ log, WithinBounds u.params
  follows : log.IsChain Follows
  once : bootstraps log = min 1 log.length

theorem holds_init (controller : Principal) : Holds controller [] (init controller) where
  controller := rfl
  cell := rfl
  lastUpdate64 := Nat.zero_le _
  epoch64 := Nat.zero_le _
  stored := rfl
  epoch := rfl
  latest := rfl
  bounds := fun _ hu => nomatch hu
  follows := .nil
  once := rfl

variable {controller : Principal} {log : List Update} {m : Message}

/-- An accepted update is the new latest, and follows the one before. -/
theorem Holds.accept {now : Nat} (h : Holds controller log s) (hnow : now ≤ u64Max)
    (ha : Accepts s.params (!s.launchFeeActivated) s.feeParamsEpoch s.lastFeeUpdateNs now accepted) :
    Holds controller (⟨now, !s.launchFeeActivated, accepted⟩ :: log)
      {commitFeeGovernance now (s.feeParamsEpoch + 1) true s with params := accepted} where
  controller := h.controller
  cell := rfl
  lastUpdate64 := hnow
  epoch64 := ha.epoch64
  stored := by
    show accepted.paramsEpoch.getD 0 = _
    rw [ha.epoch]
    rfl
  epoch := congrArg (· + 1) h.epoch
  latest := ⟨rfl, rfl, rfl⟩
  bounds := fun u hu => by
    rcases List.mem_cons.1 hu with rfl | hu
    · exact ha.bounds
    · exact h.bounds u hu
  follows := by
    have hlatest := h.latest
    cases log with
    | nil => exact .singleton _
    | cons u log =>
      obtain ⟨hactivated, hparams, hlast⟩ := hlatest
      have hroutine : (!s.launchFeeActivated) = false := by rw [hactivated]; rfl
      obtain ⟨hmoves, hcool⟩ := ha.routine hroutine
      rw [hparams] at hmoves
      rw [hlast] at hcool
      refine .cons_cons ⟨hroutine, hcool, hmoves, ?_⟩ h.follows
      rw [← hparams, h.stored]
      show accepted.paramsEpoch.getD 0 = _
      rw [ha.epoch]
      rfl
  once := by
    have hlatest := h.latest
    have honce := h.once
    cases log with
    | nil =>
      have hoff : s.launchFeeActivated = false := hlatest
      simp [bootstraps, hoff]
    | cons u log =>
      simp only [bootstraps, List.countP_cons, hlatest.1, Bool.not_true, List.length_cons] at honce ⊢
      simp only [Bool.false_eq_true, if_false]
      omega

/-- What is committed is decoded again. -/
theorem decode_committed {last epoch : Nat} (hlast : last ≤ u64Max) (hepoch : epoch ≤ u64Max)
    (activated : Bool) :
    decodeFeeGovernance (some ⟨last, epoch, activated.toNat⟩) = some (last, epoch, activated) := by
  have hnarrow : ∀ {w}, w ≤ u64Max → narrow64 w = some w := fun hw => if_pos hw
  have hflag : decodeFlag activated.toNat = some activated := by cases activated <;> rfl
  simp only [decodeFeeGovernance, Option.bind_eq_bind, Option.bind_some, hnarrow hlast,
    hnarrow hepoch, hflag]

/-- The gate finds the two epochs equal, and the mirrors as they were. -/
theorem Holds.upgrade (h : Holds controller log s) :
    upgrade.exec s = .ok (.ok (), {s with checkpoint := some ⟨controller, s.params⟩}) := by
  have hdecode : decodeFeeGovernance s.cell =
      some (s.lastFeeUpdateNs, s.feeParamsEpoch, s.launchFeeActivated) := by
    rw [h.cell]
    exact decode_committed h.lastUpdate64 h.epoch64 _
  simp only [FeeGovernance.upgrade, preUpgrade, postUpgrade, reboot, bind_ok_iff, read_ok_iff,
    write_ok_iff, expect_ok_iff, assert_ok_iff, and_assoc, exists_and_left, exists_eq_left,
    exists_const, h.controller, Option.some.injEq, exists_eq_left', hdecode, h.stored, true_and]

theorem Holds.step (h : Holds controller log s) (m : Message) (hnow : m.now ≤ u64Max) :
    Holds controller (updates m s ++ log) (FeeGovernance.step m s).2 := by
  obtain ⟨now, caller, call⟩ := m
  cases call with
  | setGovernanceFeeParams params =>
    unfold updates FeeGovernance.step
    match hr : (setGovernanceFeeParams now caller params).exec s with
    | .error trap =>
      simp only [hr, respond]
      exact h
    | .ok (.error e, t) =>
      simp only [hr, respond]
      rw [atomic_setGovernanceFeeParams _ _ _ _ _ _ hr]
      exact h
    | .ok (.ok (), t) =>
      obtain ⟨-, accepted, haccepts, rfl⟩ := setGovernanceFeeParams_ok hr
      simp only [hr, respond]
      exact h.accept hnow haccepts
  | upgrade =>
    unfold updates FeeGovernance.step
    simp only [h.upgrade, respond]
    exact ⟨h.controller, h.cell, h.lastUpdate64, h.epoch64, h.stored, h.epoch, h.latest, h.bounds,
      h.follows, h.once⟩

theorem Run.holds {clock : Nat} (run : Run controller clock log s) : Holds controller log s := by
  induction run with
  | installed => exact holds_init controller
  | step _ m _ clock64 ih => exact ih.step m clock64

/-- An answer that accepts nothing. -/
def Answer.refused : Answer → Bool
  | .set (.error _) => true
  | .trapped _ => true
  | _ => false

theorem step_refused (m : Message) (s : FeeState) (h : (FeeGovernance.step m s).1.refused = true) :
    (FeeGovernance.step m s).2 = s := by
  obtain ⟨now, caller, call⟩ := m
  cases call with
  | setGovernanceFeeParams params =>
    unfold FeeGovernance.step at h ⊢
    match hr : (setGovernanceFeeParams now caller params).exec s with
    | .error trap => simp only [hr, respond]
    | .ok (.error e, t) =>
      simp only [hr, respond]
      exact atomic_setGovernanceFeeParams _ _ _ _ _ _ hr
    | .ok (.ok (), t) =>
      simp only [hr, respond] at h
      exact nomatch h
  | upgrade =>
    unfold FeeGovernance.step at h ⊢
    match hr : upgrade.exec s with
    | .error trap => simp only [respond]
    | .ok (_, t) =>
      simp only [hr, respond] at h
      exact nomatch h

/-- What holds of every state of a run, and of the updates that led to it. -/
structure Guarded (controller : Principal) (log : List Update) (s : FeeState) : Prop where
  /-- A call that is refused changes nothing, and neither does an upgrade, which is not. -/
  refused : ∀ m, (step m s).1.refused = true → (step m s).2 = s
  upgrade : ∀ m, m.call = .upgrade → (step m s).1 = .upgraded ∧
    (step m s).2 = {s with checkpoint := some ⟨controller, s.params⟩}
  /-- From the first acceptance on the values in force are within the bounds. -/
  bounds : log ≠ [] → WithinBounds s.params
  inForce : ∀ u ∈ log.head?, s.params = u.params
  follows : log.IsChain Follows
  once : bootstraps log ≤ 1
  epoch : s.feeParamsEpoch = log.length
  stored : s.params.effectiveParamsEpoch = s.feeParamsEpoch
  cell : decodeFeeGovernance s.cell =
    some (s.lastFeeUpdateNs, s.feeParamsEpoch, s.launchFeeActivated)

/-- Whatever updates and upgrades the pool took, the fee parameters have stayed within
the guardrails. -/
theorem fees_guarded {clock : Nat} (run : Run controller clock log s) : Guarded controller log s := by
  have h := run.holds
  have hlatest := h.latest
  refine ⟨fun m hm => step_refused m s hm, ?_, ?_, ?_, h.follows, ?_, h.epoch, h.stored, ?_⟩
  · intro m hm
    unfold FeeGovernance.step
    simp only [hm, h.upgrade, respond, and_self]
  · intro hne
    cases log with
    | nil => exact absurd rfl hne
    | cons u log =>
      rw [hlatest.2.1]
      exact h.bounds u List.mem_cons_self
  · intro u hu
    cases log with
    | nil => exact nomatch hu
    | cons v log =>
      cases hu
      exact hlatest.2.1
  · rw [h.once]
    exact Nat.min_le_left _ _
  · rw [h.cell]
    exact decode_committed h.lastUpdate64 h.epoch64 _

/-- The documented launch, an upgrade, and a day later a tenth more on the flat minimum. -/
def raisedAfterLaunch : GovernanceFeeParams :=
  {GovernanceFeeParams.mainnetLaunchConfig with
    shieldFlatMinimumFeeE8s := some 275000000
    paramsEpoch := some 2}

theorem fees_guarded_launch :
    let launch : Message := ⟨1, 7, .setGovernanceFeeParams .mainnetLaunchConfig⟩
    let raise : Message := ⟨1 + feeUpdateCooldownNs, 7, .setGovernanceFeeParams raisedAfterLaunch⟩
    let launched := (step launch (init 7)).2
    let upgraded := (step ⟨2, 7, .upgrade⟩ launched).2
    Guarded 7 [⟨1 + feeUpdateCooldownNs, false, raisedAfterLaunch⟩, ⟨1, true, .mainnetLaunchConfig⟩]
      (step raise upgraded).2 := by
  intro launch raise launched upgraded
  have hlog : updates raise upgraded ++ (updates ⟨2, 7, .upgrade⟩ launched ++
      (updates launch (init 7) ++ [])) = [⟨1 + feeUpdateCooldownNs, false, raisedAfterLaunch⟩,
        ⟨1, true, .mainnetLaunchConfig⟩] := by
    decide +kernel
  rw [← hlog]
  have hinstalled : Run 7 0 [] (init 7) := .installed 0
  have hlaunch := hinstalled.step launch (by decide) (by decide)
  have hupgrade := hlaunch.step ⟨2, 7, .upgrade⟩ (by decide) (by decide)
  exact fees_guarded (hupgrade.step raise (by decide) (by decide))

/-- The older shielding fee has no absolute bound and may fall at once to nothing: ten
STSH at launch, which is above every ceiling, and a day later none. -/
theorem older_fee_unbounded :
    let launch := {GovernanceFeeParams.mainnetLaunchConfig with
      protocolShieldingFeeStsh := 10 * e8sPerStsh}
    let lowered := {launch with protocolShieldingFeeStsh := 0, paramsEpoch := some 2}
    let first := step ⟨1, 7, .setGovernanceFeeParams launch⟩ (init 7)
    let second := step ⟨1 + feeUpdateCooldownNs, 7, .setGovernanceFeeParams lowered⟩ first.2
    first.1 = .set (.ok ()) ∧ second.1 = .set (.ok ()) ∧
      max flatMinimumFeeCeilingE8s privateSpendFeeCeilingE8s <
        first.2.params.protocolShieldingFeeStsh ∧
      second.2.params.protocolShieldingFeeStsh < min flatMinimumFeeFloorE8s privateSpendFeeFloorE8s ∧
      2 * second.2.params.protocolShieldingFeeStsh < first.2.params.protocolShieldingFeeStsh := by
  decide +kernel

end StshProtocol.ShieldedPool.FeeGovernance
