import StshProtocol.Custody.RecoveryRates
import StshProtocol.Custody.VaultRates

/-! The entry rates of both planes, over their runs. -/
namespace StshProtocol.Custody
open Foundation ShieldedPool
open Foundation.Handler

/-! ### A run of each -/

section Sample

def sampleSigners : List Principal := [2#240, 3#240]

def sampleRoster : BootstrapRecord := ⟨sampleSigners, 2, 9#240⟩

def sampleRecoveryEnv : RecoveryPlane.Env := ⟨8#240, fun _ => 0, fun _ => [], fun _ => [], fun _ => []⟩

def sampleRecovery : RecoveryPlane.State where
  membership := some sampleRoster
  epoch := 0
  proposals := ∅
  intents := ∅
  nonterminalIntents := ∅
  pendingProposals := ∅
  proposalExpiry := ∅
  nonterminalProposals := ∅
  companion := some (RecoveryPlane.companionSeal sampleRecoveryEnv ⟨.zero, 0, 0⟩)
  entryRate := .empty
  audit := []
  charged := []

def sampleVaultEnv : VaultPlane.Env Unit Unit where
  selfId := 9#240
  sha256 _ := 0
  toText _ := ""
  validateApplication _ := .ok ()
  encodeApplication _ := []
  maxRequestBytes _ := 0
  validateReadModel _ := .ok ()
  encodeUpgrade _ := []
  encodeReconcile _ := []
  encodeReconcileStart _ := []
  encodeCanonical _ := []
  encodeCommitment _ := []

def sampleVault : VaultPlane.State Unit Unit where
  gov := some ⟨⟨sampleSigners, 2, 8#240⟩, 0, .default, []⟩
  proposals := ∅
  approvals := ∅
  auditEvents := ∅
  reservations := ∅
  proposalExpiry := ∅
  openMutating := ∅
  openCreation := ∅
  nonterminalProposals := ∅
  companion := some (VaultPlane.companionSeal sampleVaultEnv ⟨.zero, 1, 1, 1, 0, [], 0⟩)
  entryRate := .empty
  charged := []

/-- The answer of a message, and the entry events charged by then. -/
def charges {σ ε : Type} (log : σ → List EntryEvent) (r : Except Trap (Except ε Nat × σ)) :
    Option (Option Nat × List EntryEvent) :=
  r.toOption.map fun p => (p.1.toOption, log p.2)

theorem charges_eq_some {σ ε : Type} {log : σ → List EntryEvent} {r : Except Trap (Except ε Nat × σ)}
    {id : Nat} {events : List EntryEvent} (h : charges log r = some (some id, events)) :
    ∃ t, r = .ok (.ok id, t) ∧ log t = events := by
  cases r with
  | error e => exact nomatch h
  | ok p =>
    obtain ⟨answer, t⟩ := p
    cases answer with
    | error e => exact nomatch h
    | ok n =>
      simp only [charges, Except.toOption, Option.map_some, Option.some.injEq, Prod.mk.injEq] at h
      obtain ⟨rfl, hevents⟩ := h
      exact ⟨t, rfl, hevents⟩

def sampleEntry : RecoveryPlane.Entry := .recovery 2#240 .startVault none

theorem recovery_charges : charges RecoveryPlane.State.charged
    ((sampleEntry.run sampleRecoveryEnv 5).exec sampleRecovery) = some (some 0, [(2#240, 5)]) := by
  decide +kernel

theorem vault_charges : charges VaultPlane.State.charged
    ((VaultPlane.proposeInner sampleVaultEnv 2#240 (.readModel ()) 5 none).exec sampleVault) =
      some (some 1, [(2#240, 5)]) := by
  decide +kernel

end Sample

/-! ### The rates -/

variable {α ρ : Type} {E : RecoveryPlane.Env} {F : VaultPlane.Env α ρ}

/-- On both planes no window of the length of a day, however it lies, has more entry events than all
signers may have, nor more of one signer's than one may have. A refused charge stores nothing. On the
recovery plane each message that enters a proposal charges once, with one proposal admitted or one
rejection on record, or changes nothing; and a caller below both limits is charged. -/
theorem entry_rates_hold {w : RecoveryPlane.World} (hw : (RecoveryPlane.plane E).Reachable w)
    {v : VaultPlane.World α ρ} (hv : (VaultPlane.plane F).Reachable v) :
    (WithinRates entryRate w.state.charged ∧ WithinRates entryRate v.state.charged) ∧
    (∀ who t e, (RecoveryPlane.chargeEntryEvent who w.now).exec w.state = .ok (.error e, t) →
      t = w.state) ∧
    (∀ who t e, (VaultPlane.chargeEntryEvent who v.now).exec v.state = .ok (.error e, t) →
      t = v.state) ∧
    (∀ caller action lifetime t e,
      (VaultPlane.proposeInner F caller action v.now lifetime).exec v.state = .ok (.error e, t) →
      t = v.state) ∧
    (∀ (m : RecoveryPlane.Entry) r t, (m.run E w.now).exec w.state = .ok (r, t) →
      RecoveryPlane.EntryEnds m.caller w.now w.state t r) ∧
    ∀ who, windowCount entryRate w.now w.state.charged < entryRate.globalPerWindow →
      windowCountOf entryRate who w.now w.state.charged < entryRate.perSignerPerWindow →
      ∃ t, (RecoveryPlane.chargeEntryEvent who w.now).exec w.state = .ok (.ok (), t) := by
  refine ⟨⟨(RecoveryPlane.reachable_ledgered hw).rates, (VaultPlane.reachable_charged hv).rates⟩,
    fun who t e h => RecoveryPlane.chargeEntryEvent_atomic _ _ _ h,
    fun who t e h => VaultPlane.chargeEntryEvent_atomic _ _ _ h,
    fun caller action lifetime t e h => ?_, fun m r t h => RecoveryPlane.entry_ends h,
    fun who hall hmine => RecoveryPlane.charge_passes hw hall hmine⟩
  cases VaultPlane.proposeInner_ends h with
  | refused same => exact same

/-- A run of each plane in which a proposal is charged. -/
theorem entry_rates_hold_after_a_charge :
    ∃ (w : RecoveryPlane.World) (v : VaultPlane.World Unit Unit),
      w.state.charged = [(2#240, 5)] ∧ v.state.charged = [(2#240, 5)] ∧
      WithinRates entryRate w.state.charged ∧ WithinRates entryRate v.state.charged ∧
      ∃ t, (RecoveryPlane.chargeEntryEvent 2#240 w.now).exec w.state = .ok (.ok (), t) := by
  obtain ⟨t, ht, htlog⟩ := charges_eq_some recovery_charges
  obtain ⟨u, hu, hulog⟩ := charges_eq_some vault_charges
  have hstep : (RecoveryPlane.plane sampleRecoveryEnv).step ⟨sampleRecovery, 5⟩ (.enter sampleEntry)
      ⟨t, 5⟩ := RecoveryPlane.Step.enter (w := ⟨sampleRecovery, 5⟩) ht
  have hstep' : (VaultPlane.plane sampleVaultEnv).step ⟨sampleVault, 5⟩
      (.propose 2#240 (.readModel ()) none) ⟨u, 5⟩ :=
    VaultPlane.Step.propose (w := ⟨sampleVault, 5⟩) hu
  have hw : (RecoveryPlane.plane sampleRecoveryEnv).Reachable ⟨t, 5⟩ :=
    .step (.start ⟨rfl, rfl⟩) trivial hstep
  have hv : (VaultPlane.plane sampleVaultEnv).Reachable ⟨u, 5⟩ :=
    .step (.start ⟨rfl, rfl⟩) trivial hstep'
  have h := entry_rates_hold hw hv
  refine ⟨⟨t, 5⟩, ⟨u, 5⟩, htlog, hulog, h.1.1, h.1.2, ?_⟩
  refine h.2.2.2.2.2 2#240 ?_ ?_
  · show windowCount entryRate 5 t.charged < entryRate.globalPerWindow
    rw [htlog]
    decide
  · show windowCountOf entryRate 2#240 5 t.charged < entryRate.perSignerPerWindow
    rw [htlog]
    decide

end StshProtocol.Custody
