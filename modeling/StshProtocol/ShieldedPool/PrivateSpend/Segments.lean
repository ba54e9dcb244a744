import StshProtocol.ShieldedPool.PrivateSpend.Canister

/-! What each segment of a spend does to the security cells, and how it can end.

Up to the reservation every segment keeps the cells; the one that commits may apply an
activation that is due. A spend passes on what it captured, and `SecurityEpochChanged` is
answered by the commit alone, when the epoch has moved. -/
namespace StshProtocol.ShieldedPool.PrivateSpend
open Foundation FeePolicy Handler

/-- The spend a suspended call belongs to, as long as its nullifiers are not reserved. -/
def Cont.frame? : Cont → Option SpendFrame
  | .memoKey f _ | .precheckNullifier f _ _ _ | .precheckFee f _ _ | .precheckBalance f _ _
  | .device f _ _ | .attest f _ _ _ => some f
  | .verify a | .recheckNullifier a _ _ | .recheckFee a _ | .recheckBalance a _ => some a.frame
  | .insertBatch _ | .setVerifier _ _ => none

/-- The spend whose record is written. -/
def Cont.admitted? : Cont → Option AdmittedSpend
  | .verify a | .recheckNullifier a _ _ | .recheckFee a _ | .recheckBalance a _
  | .insertBatch a => some a
  | _ => none

/-- The errors of everything but the commit. -/
def Early (e : PoolError) : Prop := e ≠ .securityEpochChanged

section Quiet
variable {α : Type} {now : Nat} {caller : Principal} {D : Deployment}

abbrev Steady (x : Spending α) : Prop := Quiet SpendState.security Early x

theorem steady_failBeforeStateChange {id : SpendId} {reason : String} {e : PoolError} (he : Early e) :
    Steady (failBeforeStateChange (α := α) now id reason e) :=
  Quiet.bind (quiet_write fun _ => rfl) fun _ => quiet_fail he

theorem steady_guardNullifiers (nullifiers : List Bytes32) : Steady (guardNullifiers nullifiers) :=
  Quiet.bind (quiet_read _) fun _ =>
  Quiet.bind (quiet_demand _ nofun) fun _ =>
  Quiet.bind (quiet_write fun _ => rfl) fun _ => quiet_pure _

theorem steady_admitVerify : Steady (admitVerify caller now) :=
  Quiet.bind (quiet_write fun _ => rfl) fun _ =>
  Quiet.bind (quiet_read _) fun _ =>
  Quiet.bind (quiet_read _) fun _ =>
  Quiet.bind (quiet_demand _ nofun) fun _ => quiet_write fun _ => rfl

theorem steady_resolveVerify (failed : Bool) : Steady (resolveVerify caller now failed) := by
  refine Quiet.bind (quiet_write fun _ => rfl) fun _ => ?_
  cases failed with
  | true => exact quiet_write fun _ => rfl
  | false => exact quiet_pure ()

theorem steady_reservePayout (payout : Option PrivateSpendPublicPayout) :
    Steady (reservePayout payout) := by
  cases payout with
  | none => exact quiet_pure none
  | some p =>
    have hsequence : Steady reservePayoutSequence :=
      Quiet.bind (quiet_read _) fun _ =>
      Quiet.bind (quiet_demand _ nofun) fun _ =>
      Quiet.bind (quiet_demand _ nofun) fun _ =>
      Quiet.bind (quiet_write fun _ => rfl) fun _ => quiet_pure _
    exact Quiet.bind hsequence fun _ => quiet_pure _

theorem early_checkNullifierSpent (r : Reply) : ∀ e, checkNullifierSpent D r = .error e → Early e := by
  intro e h
  cases r <;> cases h <;> nofun

theorem early_queryLedgerFee (r : Reply) : ∀ e, queryLedgerFee D r = .error e → Early e := by
  intro e h
  unfold queryLedgerFee at h
  split at h
  · split at h <;> cases h
    nofun
  · cases h
    nofun

theorem early_queryPoolLedgerBalance (r : Reply) :
    ∀ e, queryPoolLedgerBalance D r = .error e → Early e := by
  intro e h
  unfold queryPoolLedgerBalance at h
  split at h
  · split at h <;> cases h
    nofun
  · cases h
    nofun

theorem early_mapDeviceCheck (r : Reply) : ∀ e, mapDeviceCheck r = .error e → Early e := by
  intro e h
  unfold mapDeviceCheck at h
  split at h <;> cases h <;> nofun

theorem early_reportedVkHash (what : String) (r : Reply) :
    ∀ e, reportedVkHash D what r = .error e → Early e := by
  intro e h
  cases r <;> cases h <;> nofun

theorem early_expectedPrivateSpendFee {payout : Option PrivateSpendPublicPayout}
    {p : GovernanceFeeParams} : ∀ e, expectedPrivateSpendFee payout p = .error e → Early e := by
  intro e h
  have hmap : ∀ {x : Except FeePolicyError Nat}, x.mapError feePolicyError = .error e → Early e := by
    intro x hx
    cases x <;> cases hx
    nofun
  unfold expectedPrivateSpendFee at h
  split at h <;> exact hmap h

theorem steady_checkPayoutFee (payout : PrivateSpendPublicPayout) (r : Reply) :
    Steady (checkPayoutFee D payout r) :=
  Quiet.bind (quiet_lift (early_queryLedgerFee r)) fun _ =>
  Quiet.bind (quiet_demand _ nofun) fun _ =>
  Quiet.bind (quiet_read _) fun _ => quiet_demand _ nofun

theorem steady_checkPayoutBalance (payout : PrivateSpendPublicPayout) (r : Reply) :
    Steady (checkPayoutBalance D payout r) :=
  Quiet.bind (quiet_lift (early_queryPoolLedgerBalance r)) fun _ => quiet_demand _ nofun

theorem exec_recheckPayout {a : AdmittedSpend} {check : Spending Unit} {s : SpendState} :
    (recheckPayout D now a check).exec s = match check.exec s with
      | .ok (.error e, s') => (failBeforeStateChange now a.frame.args.spendId
          s!"public payout precondition changed during verification: {D.debugError e}" e).exec s'
      | r => r := rfl

theorem steady_recheckPayout {a : AdmittedSpend} {check : Spending Unit} (h : Steady check) :
    Steady (recheckPayout D now a check) := by
  intro s r t hr
  rw [exec_recheckPayout] at hr
  split at hr
  · next e s' hs =>
    obtain ⟨hv, he⟩ := h _ _ _ hs
    obtain ⟨hv', he'⟩ := steady_failBeforeStateChange (α := Unit) (he e rfl) _ _ _ hr
    exact ⟨hv'.trans hv, he'⟩
  · exact h _ _ _ hr

theorem steady_provisionMemoKey (boot : Nat) (r : Reply) : Steady (provisionMemoKey boot r) := by
  unfold provisionMemoKey
  split
  · refine Quiet.bind (quiet_demand _ nofun) fun _ => Quiet.bind (quiet_read _) fun latest =>
      Quiet.bind (quiet_demand _ nofun) fun _ => ?_
    split
    · exact quiet_write fun _ => rfl
    · exact quiet_pure ()
  · exact quiet_fail nofun

end Quiet

/-! ### Before the verifier -/

/-- A segment before the verifier's verdict keeps the security cells; where it awaits, it
passes the spend on, and the verifier a record is entrusted to is the configured one. -/
def Prepares (f : SpendFrame) (c : SecurityCells) (r : Except PoolError Next) (t : SpendState) : Prop :=
  t.security = c ∧
    match r with
    | .ok (.awaits k) =>
      k.frame? = some f ∧
        ∀ a, k.admitted? = some a → k = .verify a ∧ c.verifierCanister = some a.verifier
    | .ok _ => False
    | .error e => Early e

section Prepares
variable {f : SpendFrame} {c : Callees} {now : Nat} {D : Deployment} {x : Spending Next}

theorem prepares_error {e : PoolError} {t : SpendState} (he : Early e) :
    Prepares f t.security (.error e) t := ⟨rfl, he⟩

theorem prepares_waits {k : Cont} {t : SpendState} (hf : k.frame? = some f) (ha : k.admitted? = none) :
    Prepares f t.security (.ok (.awaits k)) t :=
  ⟨rfl, hf, fun a h => by rw [ha] at h; cases h⟩

theorem Steady.prepares {α : Type} {y : Spending α} {g : α → Spending Next} (hy : Steady y)
    (hg : ∀ b, Ends SpendState.security (Prepares f) (g b)) :
    Ends SpendState.security (Prepares f) (y >>= g) :=
  Quiet.bind_ends hy (fun _ _ => prepares_error) hg

theorem exec_leaving {leave : SpendState → SpendState} {s : SpendState} :
    (leaving leave x).exec s = match x.exec s with
      | .error t => .error t
      | .ok (.ok (.awaits k), s') => .ok (.ok (.awaits k), s')
      | .ok (r, s') => .ok (r, leave s') := rfl

theorem ends_leaving {Q : SecurityCells → Except PoolError Next → SpendState → Prop}
    {leave : SpendState → SpendState} (hx : Ends SpendState.security Q x)
    (h : ∀ v r t, Q v r t → (∀ k, r ≠ .ok (.awaits k)) → Q v r (leave t)) :
    Ends SpendState.security Q (leaving leave x) := by
  intro s r t hr
  rw [exec_leaving] at hr
  split at hr
  · cases hr
  · next k s' hs =>
    cases hr
    exact hx _ _ _ hs
  · next r' s' hk hs =>
    cases hr
    exact h _ _ _ (hx _ _ _ hs) fun k hk' => hk k hk'

/-- What a preparing segment holds may be given back. -/
theorem prepares_leaving {leave : SpendState → SpendState} {P : SecurityCells → Prop}
    (hl : ∀ s, (leave s).security = s.security)
    (hx : Ends SpendState.security (fun c r t => P c → Prepares f c r t) x) :
    Ends SpendState.security (fun c r t => P c → Prepares f c r t) (leaving leave x) :=
  ends_leaving hx fun _ _ t h _ hp => ⟨(hl t).trans (h hp).1, (h hp).2⟩

theorem prepares_recordSpend (verifier : Principal) :
    Ends SpendState.security (fun c r t => c.verifierCanister = some verifier → Prepares f c r t)
      (recordSpend now f c verifier) := by
  have he : ∀ e t, Early e → t.security.verifierCanister = some verifier →
      Prepares f t.security (.error e) t := fun e t he _ => prepares_error he
  refine Quiet.bind_ends (quiet_read _) he fun _ => ?_
  refine Quiet.bind_ends (quiet_demand _ nofun) he fun _ => ?_
  refine Quiet.bind_ends (steady_guardNullifiers _) he fun guarded => ?_
  refine prepares_leaving (fun _ => rfl) (Quiet.bind_ends steady_admitVerify he fun _ => ?_)
  refine prepares_leaving (fun _ => rfl) (Quiet.bind_ends (steady_reservePayout _) he fun _ => ?_)
  refine Quiet.bind_ends (quiet_write fun _ => rfl) he fun _ => ?_
  refine ends_pure fun s hv => ⟨rfl, rfl, fun a ha => ?_⟩
  cases ha
  exact ⟨rfl, hv⟩

theorem prepares_attestVerifier :
    Ends SpendState.security (Prepares f) (attestVerifier now f c) := by
  intro s r t h
  rw [attestVerifier, exec_bind_ok (exec_read _)] at h
  cases hv : s.security.verifierCanister with
  | none =>
    rw [hv, need, exec_bind_error exec_fail] at h
    cases h
    exact prepares_error nofun
  | some verifier =>
    rw [hv, exec_bind_ok (exec_need rfl), exec_bind_ok (exec_read _), exec_bind_ok (exec_read _)] at h
    split at h
    · exact prepares_recordSpend verifier _ _ _ h hv
    · cases h
      exact prepares_waits rfl rfl

theorem prepares_requireActiveDevice :
    Ends SpendState.security (Prepares f) (requireActiveDevice now f c) := by
  refine Steady.prepares (quiet_read _) fun vetkeys => ?_
  cases vetkeys with
  | none => exact prepares_attestVerifier
  | some vetkeys => exact ends_pure fun _ => prepares_waits rfl rfl

theorem prepares_precheckLiability :
    Ends SpendState.security (Prepares f) (precheckLiability now f c) := by
  refine Steady.prepares (quiet_read _) fun _ => ?_
  refine Steady.prepares (quiet_demand _ nofun) fun _ => ?_
  split
  · exact ends_pure fun _ => prepares_waits rfl rfl
  · exact prepares_requireActiveDevice

theorem prepares_precheckNullifiers (nullifiers : List Bytes32) :
    Ends SpendState.security (Prepares f) (precheckNullifiers now f c nullifiers) := by
  cases nullifiers with
  | nil => exact prepares_precheckLiability
  | cons n rest => exact ends_pure fun _ => prepares_waits rfl rfl

theorem prepares_precheckPrivateSpend :
    Ends SpendState.security (Prepares f) (precheckPrivateSpend now f) := by
  refine Steady.prepares (quiet_read _) fun _ => ?_
  refine Steady.prepares (quiet_need _ nofun) fun _ => ?_
  refine Steady.prepares (quiet_need _ nofun) fun _ => ?_
  refine Steady.prepares (quiet_need _ nofun) fun _ => ?_
  refine Steady.prepares (quiet_read _) fun _ => ?_
  refine Steady.prepares (quiet_demand _ nofun) fun _ => ?_
  refine Steady.prepares (quiet_demand _ nofun) fun _ => ?_
  exact prepares_precheckNullifiers _

theorem prepares_ensurePayoutMemoKey :
    Ends SpendState.security (Prepares f) (ensurePayoutMemoKey now f) := by
  refine Steady.prepares (quiet_read _) fun _ => ?_
  split
  · exact ends_pure fun _ => prepares_waits rfl rfl
  · exact prepares_precheckPrivateSpend

/-- The verifier that is found to carry the pinned key is the configured one. -/
theorem attested_ends (verifier : Principal) (pin : Bytes32) (reply : Reply) :
    Ends SpendState.security (fun c r t => t.security = c ∧ (∀ e, r = .error e → Early e) ∧
      (r = .ok () → c.verifierCanister = some verifier)) (attested D verifier pin reply) := by
  refine Quiet.bind_ends (quiet_lift (early_reportedVkHash _ reply))
    (fun e t he => ⟨rfl, fun _ h => by cases h; exact he, by simp⟩) fun reported => ?_
  split
  · refine Quiet.bind_ends (E := Early) (quiet_write fun _ => rfl)
      (fun e t he => ⟨rfl, fun _ h => by cases h; exact he, by simp⟩) fun _ => ?_
    exact ends_fail fun _ => ⟨rfl, fun _ h => by cases h; rintro ⟨⟩, by simp⟩
  · intro s r t h
    rw [exec_bind_ok (exec_read _)] at h
    by_cases hc : (s.security.pinnedVkHash, s.security.verifierCanister) = (pin, some verifier)
    · rw [exec_bind_ok (exec_demand hc)] at h
      cases h
      exact ⟨rfl, by simp, fun _ => congrArg Prod.snd hc⟩
    · rw [exec_bind, demand, if_neg hc] at h
      cases h
      exact ⟨rfl, fun _ h => by cases h; rintro ⟨⟩, by simp⟩

theorem prepares_attested (verifier : Principal) (pin : Bytes32) (reply : Reply) :
    Ends SpendState.security (Prepares f) (do
      attested D verifier pin reply
      recordSpend now f c verifier) :=
  Ends.bind (attested_ends verifier pin reply) (fun _ => prepares_recordSpend verifier)
    (fun _ e _ h => ⟨h.1, h.2.1 e rfl⟩) fun _ _ _ _ _ h hq => h.1 ▸ hq (h.1 ▸ h.2.2 rfl)

/-- Every segment that a spend resumes with before its verdict. -/
theorem prepares_continuation (k : Cont) (r : Reply) (hf : k.frame? = some f)
    (ha : k.admitted? = none) :
    Ends SpendState.security (Prepares f) (continuation D now r k) := by
  have hl : ∀ {x : Spending Next} {caller : Principal}, Ends SpendState.security (Prepares f) x →
      Ends SpendState.security (Prepares f) (leaving (releaseSpendSlot caller) x) :=
    fun hx => ends_leaving hx fun _ _ _ h _ => h
  cases k with
  | memoKey f boot =>
    cases hf
    exact hl (Steady.prepares (steady_provisionMemoKey boot r) fun _ => prepares_precheckPrivateSpend)
  | precheckNullifier f c n rest =>
    cases hf
    refine hl (Steady.prepares (quiet_lift (early_checkNullifierSpent r)) fun _ => ?_)
    exact Steady.prepares (quiet_demand _ nofun) fun _ => prepares_precheckNullifiers rest
  | precheckFee f c payout =>
    cases hf
    exact hl (Steady.prepares (steady_checkPayoutFee payout r) fun _ => ends_pure fun _ => prepares_waits rfl rfl)
  | precheckBalance f c payout =>
    cases hf
    exact hl (Steady.prepares (steady_checkPayoutBalance payout r) fun _ => prepares_requireActiveDevice)
  | device f c vetkeys =>
    cases hf
    exact hl (Steady.prepares (quiet_lift (early_mapDeviceCheck r)) fun _ => prepares_attestVerifier)
  | attest f c verifier pin =>
    cases hf
    exact hl (prepares_attested verifier pin r)
  | verify a => cases ha
  | recheckNullifier a n rest => cases ha
  | recheckFee a payout => cases ha
  | recheckBalance a payout => cases ha
  | insertBatch a => cases ha
  | setVerifier verifier pin => cases hf

end Prepares

/-! ### The activation -/

/-- The cells before and after whatever is due at `now` is activated. -/
def Activates (now : Nat) (c c' : SecurityCells) : Prop :=
  (¬c.Overdue now ∧ c' = c) ∨
    (c.Overdue now ∧ c' = {c.activate with securityEpoch := c.securityEpoch + 1})

section Activation
variable {ε : Type} {now : Nat} {s t : SpendState}

theorem bumpSecurityEpoch_ends {r : Except ε Unit}
    (h : (bumpSecurityEpoch : Message ε Unit).exec s = .ok (r, t)) :
    r = .ok () ∧
      t = {s with security := {s.security with securityEpoch := s.security.securityEpoch + 1}} := by
  rw [bumpSecurityEpoch, exec_bind_ok (exec_read _)] at h
  by_cases hmax : s.security.securityEpoch + 1 ≤ u64Max
  · rw [assert, if_pos hmax, exec_bind_ok exec_pure] at h
    cases h
    exact ⟨rfl, rfl⟩
  · rw [assert, if_neg hmax, exec_bind_trap (exec_trap _)] at h
    cases h

theorem maybeActivatePendingVk_ends {r : Except ε Unit}
    (h : (maybeActivatePendingVk now : Message ε Unit).exec s = .ok (r, t)) :
    r = .ok () ∧ ∃ c, Activates now s.security c ∧ t = {s with security := c} := by
  rw [maybeActivatePendingVk, exec_bind_ok (exec_read _)] at h
  by_cases hdue : s.security.Overdue now
  · rw [decide_eq_true hdue, if_pos rfl, setSecurity, exec_bind_ok (exec_write _)] at h
    obtain ⟨hr, ht⟩ := bumpSecurityEpoch_ends h
    exact ⟨hr, _, .inr ⟨hdue, rfl⟩, ht⟩
  · rw [decide_eq_false hdue, if_neg Bool.false_ne_true] at h
    cases h
    exact ⟨rfl, _, .inl ⟨hdue, rfl⟩, rfl⟩

end Activation

/-! ### The reservation -/

/-- Neither the record nor its locator is left. -/
structure Gone (f : SpendFrame) (s : SpendState) : Prop where
  record : s.spends.pending[f.args.spendId]? = none
  locator : (f.caller, f.args.spendId) ∉ s.spends.active

/-- The nullifiers are reserved and the outputs staged, under the epoch that was captured. -/
structure Reserved (a : AdmittedSpend) (s : SpendState) : Prop where
  record : s.spends.pending[a.frame.args.spendId]? = some {a.pending with status := .outputsStaged}
  inflight : ∀ n ∈ a.frame.args.nullifiers, n ∈ s.spends.inflight
  staged : a.frame.args.spendId ∈ s.spends.outputs
  epoch : s.security.securityEpoch = a.frame.capturedEpoch

/-- A continuation behind the verdict. -/
def Cont.rechecks? : Cont → Option AdmittedSpend
  | .recheckNullifier a _ _ | .recheckFee a _ | .recheckBalance a _ => some a
  | _ => none

/-- How a segment behind the verdict ends. -/
inductive Settles (now : Nat) (a : AdmittedSpend) (c : SecurityCells) :
    Except PoolError Next → SpendState → Prop where
  | waits {k : Cont} {t : SpendState} (hk : k.rechecks? = some a) (hc : t.security = c) :
      Settles now a c (.ok (.awaits k)) t
  | reserves {t : SpendState} (hc : Activates now c t.security) (h : Reserved a t) :
      Settles now a c (.ok (.awaits (.insertBatch a))) t
  | refused {e : PoolError} {t : SpendState} (he : Early e)
      (hc : t.security = c ∨ Activates now c t.security) : Settles now a c (.error e) t
  | aborted {t : SpendState} (hc : Activates now c t.security) (h : Gone a.frame t)
      (he : t.security.securityEpoch ≠ a.frame.capturedEpoch) :
      Settles now a c (.error .securityEpochChanged) t

section Settles
variable {a : AdmittedSpend} {now : Nat} {D : Deployment}

theorem settles_error {e : PoolError} {t : SpendState} (he : Early e) :
    Settles now a t.security (.error e) t := .refused he (.inl rfl)

theorem Steady.settles {α : Type} {y : Spending α} {g : α → Spending Next} (hy : Steady y)
    (hg : ∀ b, Ends SpendState.security (Settles now a) (g b)) :
    Ends SpendState.security (Settles now a) (y >>= g) :=
  Quiet.bind_ends hy (fun _ _ => settles_error) hg

theorem settles_fail {id : SpendId} {reason : String} {e : PoolError} (he : Early e) :
    Ends SpendState.security (Settles now a) (failBeforeStateChange now id reason e) := by
  refine Steady.settles (quiet_write fun _ => rfl) fun _ => ends_fail fun _ => settles_error he

theorem discardSpend_gone {f : SpendFrame} {s : SpendState} {b : SpendBook} :
    Gone f {s with spends := b.discardSpend (some f.caller) f.args.spendId} where
  record := Std.ExtTreeMap.getElem?_erase_self
  locator := fun h => (Std.ExtTreeMap.mem_erase.1 h).1 Std.ReflOrd.compare_self

theorem mem_insertAll {set : StableSet Bytes32} {nullifiers : List Bytes32} {n : Bytes32}
    (h : n ∈ nullifiers) : n ∈ insertAll set nullifiers :=
  StableMap.mem_foldl_insert () |>.2 (.inl h)

/-- Once the epoch is found to be the captured one, nothing but a nullifier that is held
elsewhere keeps the spend from reserving. -/
theorem settles_reserveNullifiers {c : SecurityCells} {s t : SpendState}
    {r : Except PoolError Next} (hc : Activates now c s.security)
    (he : s.security.securityEpoch = a.frame.capturedEpoch)
    (h : (reserveNullifiers now a).exec s = .ok (r, t)) : Settles now a c r t := by
  have reserved_early : Early .nullifierReserved := nofun
  have hfail : ∀ {reason e}, Early e →
      (failBeforeStateChange (α := Next) now a.frame.args.spendId reason e).exec s = .ok (r, t) →
      Settles now a c r t := by
    intro reason e he hx
    cases hx
    exact .refused he (.inr hc)
  rw [reserveNullifiers, exec_bind_ok (exec_read _)] at h
  split at h
  · exact hfail reserved_early h
  · rw [exec_bind_ok (exec_read _)] at h
    split at h
    · exact hfail reserved_early h
    · cases h
      refine .reserves hc ⟨Std.ExtTreeMap.getElem?_insert_self, fun n hn => mem_insertAll hn, ?_, he⟩
      exact Std.ExtTreeMap.mem_insert_self

theorem settles_commitPrivateSpend :
    Ends SpendState.security (Settles now a) (commitPrivateSpend now a) := by
  intro s r t h
  cases hm : (maybeActivatePendingVk now : Spending Unit).exec s with
  | error q =>
    rw [commitPrivateSpend, exec_bind_trap hm] at h
    cases h
  | ok p =>
    obtain ⟨_, u⟩ := p
    obtain ⟨rfl, c, hc, rfl⟩ := maybeActivatePendingVk_ends hm
    rw [commitPrivateSpend, exec_bind_ok hm, exec_bind_ok (exec_read _), exec_bind_ok (exec_read _)] at h
    by_cases hours : recordIsOurs a.pending.submitter s.spends.pending[a.frame.args.spendId]? = true
    · rw [exec_bind_ok (exec_demand hours)] at h
      split at h
      · next hepoch =>
        cases h
        exact .aborted hc (a.submitter ▸ discardSpend_gone) hepoch
      · next hepoch => exact settles_reserveNullifiers hc (not_not.1 hepoch) h
    · rw [demand, if_neg hours, exec_bind_error exec_fail] at h
      cases h
      exact .refused (by rintro ⟨⟩) (.inr hc)

theorem settles_recheckRecord : Ends SpendState.security (Settles now a) (recheckRecord now a) :=
  Steady.settles (quiet_read _) fun _ =>
  Steady.settles (quiet_demand _ nofun) fun _ => settles_commitPrivateSpend

theorem settles_recheckLiability :
    Ends SpendState.security (Settles now a) (recheckLiability now a) := by
  refine Steady.settles (quiet_lift early_expectedPrivateSpendFee) fun expected => ?_
  split
  · exact settles_fail nofun
  · refine Steady.settles (quiet_read _) fun liability => ?_
    split
    · exact settles_fail nofun
    · split
      · exact ends_pure fun _ => .waits rfl rfl
      · exact settles_recheckRecord

theorem settles_recheckNullifiers (nullifiers : List Bytes32) :
    Ends SpendState.security (Settles now a) (recheckNullifiers now a nullifiers) := by
  cases nullifiers with
  | nil => exact settles_recheckLiability
  | cons n rest => exact ends_pure fun _ => .waits rfl rfl

theorem settles_recheckPrivateSpend :
    Ends SpendState.security (Settles now a) (recheckPrivateSpend now a) := by
  refine Steady.settles (quiet_read _) fun accepted => ?_
  split
  · exact settles_recheckNullifiers _
  · exact settles_fail nofun

/-- The verifier accepted the proof. -/
def Accepted (r : Reply) : Prop := r = .verdict (.ok ())

/-- Only an accepted proof goes on. -/
theorem settles_settleVerify (r : Reply) :
    Ends SpendState.security (fun c o t => Settles now a c o t ∧ (Accepted r ∨ ∃ e, o = .error e))
      (settleVerify D now a r) := by
  have refuses : ∀ {α : Type} {y : Spending α} {g : α → Spending Next}, Steady y →
      (∀ b, Ends SpendState.security (fun c o t => Settles now a c o t ∧
        (Accepted r ∨ ∃ e, o = .error e)) (g b)) →
      Ends SpendState.security (fun c o t => Settles now a c o t ∧
        (Accepted r ∨ ∃ e, o = .error e)) (y >>= g) :=
    fun hy hg => Quiet.bind_ends hy (fun _ _ he => ⟨settles_error he, .inr ⟨_, rfl⟩⟩) hg
  unfold settleVerify
  split
  · next haccepted =>
    have hr : Accepted r := by
      cases r with
      | verdict v =>
        cases v with
        | ok u => rfl
        | error e => cases haccepted
      | _ => cases haccepted
    refine Ends.mono ?_ fun _ _ _ h => ⟨h, .inl hr⟩
    refine Steady.settles (steady_resolveVerify _) fun _ => ?_
    split
    · exact settles_recheckPrivateSpend
    · exact settles_fail nofun
  · refine refuses (steady_resolveVerify _) fun _ => ?_
    refine refuses (quiet_write fun _ => rfl) fun _ => ?_
    refine refuses (quiet_write fun _ => rfl) fun _ => ?_
    exact ends_fail fun _ => ⟨settles_error nofun, .inr ⟨_, rfl⟩⟩
  · refine refuses (steady_resolveVerify _) fun _ => ?_
    refine refuses (quiet_write fun _ => rfl) fun _ => ?_
    exact ends_fail fun _ => ⟨settles_error nofun, .inr ⟨_, rfl⟩⟩

theorem accepted_settleVerify (r : Reply) :
    Ends SpendState.security (fun _ o _ => Accepted r ∨ ∃ e, o = .error e)
      (holding a (settleVerify D now a r)) :=
  ends_leaving (ends_leaving ((settles_settleVerify r).mono fun _ _ _ h => h.2) fun _ _ _ h _ => h)
    fun _ _ _ h _ => h

/-- A segment that gives back what it holds settles as well as one that does not. -/
theorem settles_holding {x : Spending Next} (hx : Ends SpendState.security (Settles now a) x) :
    Ends SpendState.security (Settles now a) (holding a x) := by
  have hl : ∀ {leave : SpendState → SpendState} {x : Spending Next},
      (∀ s, (leave s).security = s.security ∧ (leave s).spends.pending = s.spends.pending ∧
        (leave s).spends.active = s.spends.active) →
      Ends SpendState.security (Settles now a) x →
      Ends SpendState.security (Settles now a) (leaving leave x) := by
    intro leave x hleave hx
    refine ends_leaving hx fun c r t h hr => ?_
    obtain ⟨hs, hp, ha⟩ := hleave t
    cases h with
    | waits hk hc => exact absurd rfl (hr _)
    | reserves hc h => exact absurd rfl (hr _)
    | refused he hc => exact .refused he (hs ▸ hc)
    | aborted hc h he =>
      exact .aborted (hs ▸ hc) ⟨hp ▸ h.record, ha ▸ h.locator⟩ (hs ▸ he)
  exact hl (fun _ => ⟨rfl, rfl, rfl⟩) (hl (fun _ => ⟨rfl, rfl, rfl⟩) hx)

end Settles

end StshProtocol.ShieldedPool.PrivateSpend
