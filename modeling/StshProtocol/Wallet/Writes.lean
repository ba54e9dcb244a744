import StshProtocol.Wallet.Scan
import StshProtocol.Wallet.ShieldJournal

/-! All that is written to the cache.

A scan is merged where it ends; a transition of a journal, or the reset of a floor, is applied to the
state it writes over. What throws writes nothing. -/
namespace StshProtocol.Wallet
open Foundation Scan

inductive WalletWrite where
  | scan (options : ScanOptions) (replies : List ScanReplies) (nowNs : Option Nat)
      (via : Option FirstSeenVia)
  | verifiedScan (options : VerifiedScanOptions) (binding : DeploymentBinding)
      (replies : VerifiedReplies) (seenAtNs : Nat) (via : Option FirstSeenVia)
  /-- A transition of the spend journal, or the reset of a floor. -/
  | change (c : CacheChange)
  | shield (c : ShieldChange)

/-- What is written of a result, where there is one. -/
def writtenOf {ε α β : Type} (r : Except ε α) (write : α → Option β) : Option β :=
  match r with
  | .ok a => write a
  | .error _ => none

def WalletWrite.apply (C : NoteCrypto) (s : CachedScanState) : WalletWrite → Option CachedScanState
  | .scan options replies nowNs via =>
    writtenOf (scanAndValidate C options replies) fun outcome =>
      some (mergeScanOutcome s outcome nowNs via)
  | .verifiedScan options binding replies seenAtNs via =>
    writtenOf (scanAndValidateVerified C options binding replies) fun result =>
      match result with
      | none => none
      | some (outcome, m) => writtenOf (commitVerifiedScan s outcome m seenAtNs via) some
  | .change c => if c.outcome? = none then writtenOf (c.apply s) some else none
  | .shield c => writtenOf (c.apply s) some

/-- The cache under whatever the tabs write, begun in this state. -/
def walletSystem (C : NoteCrypto) (s₀ : CachedScanState) : System CachedScanState WalletWrite where
  init s := s = s₀
  step s w s' := w.apply C s = some s'

section
variable {C : NoteCrypto} {s s' : CachedScanState}

theorem writtenOf_eq_some {ε α β : Type} {r : Except ε α} {write : α → Option β} {b : β} :
    writtenOf r write = some b ↔ ∃ a, r = .ok a ∧ write a = some b := by
  cases r with
  | error e => exact ⟨nofun, fun ⟨_, h, _⟩ => nomatch h⟩
  | ok a => exact ⟨fun h => ⟨a, rfl, h⟩, fun ⟨_, h, hb⟩ => Except.ok.inj h ▸ hb⟩

theorem scan_written {options : ScanOptions} {replies : List ScanReplies} {nowNs : Option Nat}
    {via : Option FirstSeenVia} (h : (WalletWrite.scan options replies nowNs via).apply C s = some s') :
    ∃ outcome, scanAndValidate C options replies = .ok outcome ∧
      s' = mergeScanOutcome s outcome nowNs via := by
  obtain ⟨outcome, houtcome, h⟩ := writtenOf_eq_some.1 h
  exact ⟨outcome, houtcome, (Option.some.inj h).symm⟩

theorem verifiedScan_written {options : VerifiedScanOptions} {binding : DeploymentBinding}
    {replies : VerifiedReplies} {seenAtNs : Nat} {via : Option FirstSeenVia}
    (h : (WalletWrite.verifiedScan options binding replies seenAtNs via).apply C s = some s') :
    ∃ outcome m, scanAndValidateVerified C options binding replies = .ok (some (outcome, m)) ∧
      s' = advanceVerifiedFloor (mergeScanOutcome s outcome (some seenAtNs) via) m := by
  obtain ⟨result, hresult, h⟩ := writtenOf_eq_some.1 h
  cases result with
  | none => exact nomatch h
  | some evidence =>
    obtain ⟨t, ht, h⟩ := writtenOf_eq_some.1 h
    obtain ⟨_, -, hcommitted⟩ := bind_ok ht
    refine ⟨evidence.1, evidence.2, hresult, ?_⟩
    rw [← Option.some.inj h, ← Except.ok.inj hcommitted]

theorem change_written {c : CacheChange} (h : (WalletWrite.change c).apply C s = some s') :
    c.outcome? = none ∧ c.apply s = .ok s' := by
  obtain ⟨hout, h⟩ := Option.ite_none_right_eq_some.1 h
  obtain ⟨t, ht, h⟩ := writtenOf_eq_some.1 h
  exact ⟨hout, Option.some.inj h ▸ ht⟩

theorem shield_written {c : ShieldChange} (h : (WalletWrite.shield c).apply C s = some s') :
    ShieldsOnly s s' := by
  obtain ⟨t, ht, h⟩ := writtenOf_eq_some.1 h
  exact ShieldChange.apply_keeps (Option.some.inj h ▸ ht)

end

end StshProtocol.Wallet
