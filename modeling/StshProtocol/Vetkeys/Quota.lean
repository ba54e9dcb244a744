import StshProtocol.Vetkeys.Quiet
import StshProtocol.Vetkeys.Reservations

/-! The derive quota over runs.

Every state keeps every principal's account, and the fleet's window keeps what was dispatched
within the hour. The one thing that breaks it is a reservation that is charged at its creation
though its call was dispatched later. -/
namespace StshProtocol.Vetkeys
open Foundation ShieldedPool Vesting Window

/-! ### A principal's part of the history -/

namespace History

/-- The numbers noted of the principal. -/
def own (l : List (PrincipalKey × Nat)) (who : PrincipalKey) : List Nat :=
  (l.filter fun e => decide (e.1 = who)).map (·.2)

def of (h : History) (who : PrincipalKey) : PrincipalHistory where
  admitted := own h.admitted who
  dispatched := h.dispatched.filter fun d => decide (d.who = who)
  released := own h.released who
  charged := own h.charged who

variable {who p : PrincipalKey} {i : Nat} {l : List (PrincipalKey × Nat)}

theorem mem_own : i ∈ own l who ↔ (who, i) ∈ l := by
  constructor
  · intro hi
    obtain ⟨e, he, rfl⟩ := List.mem_map.1 hi
    rw [List.mem_filter, decide_eq_true_eq] at he
    rw [← he.2]
    exact he.1
  · exact fun hi => List.mem_map.2 ⟨_, List.mem_filter.2 ⟨hi, decide_eq_true rfl⟩, rfl⟩

@[simp] theorem own_cons_self : own ((who, i) :: l) who = i :: own l who := by
  simp [own]

theorem own_cons_ne (h : p ≠ who) : own ((who, i) :: l) p = own l p := by
  simp [own, h.symm]

@[simp] theorem own_append_self (rs : List Reservation) :
    own (rs.map (fun r => (who, r.id)) ++ l) who = rs.map (·.id) ++ own l who := by
  induction rs with
  | nil => rfl
  | cons r rs ih => exact own_cons_self.trans (congrArg (r.id :: ·) ih)

theorem own_append_ne (h : p ≠ who) (rs : List Reservation) :
    own (rs.map (fun r => (who, r.id)) ++ l) p = own l p := by
  induction rs with
  | nil => rfl
  | cons r rs ih => exact (own_cons_ne h).trans ih

end History

/-! ### The states of runs -/

/-- What holds at this time of the principals' states, the fleet's window and the history. -/
structure Sound (now : Nat) (s : VetkeysState) : Prop where
  accounts : ∀ who, Account now (s.admissionOf who) (s.history.of who)
  window : ∀ t, now ≤ t →
    (s.globalDeriveBudgetWindow.retained t).map (fun r => (r.who, r.atNs)) =
      ((s.history.dispatched.filter fun d =>
        decide ¬GlobalDeriveWindow.Expired t d.atNs).map fun d => (some d.who, d.atNs)).reverse
  fleet : Spaced globalDeriveWindowNs globalDeriveBudget (s.history.dispatched.map (·.atNs))
  hourly : ∀ who, Spaced globalDeriveWindowNs perPrincipalHourlyDeriveCap
    ((s.history.of who).dispatched.map (·.atNs))

namespace Sound
variable {now now' : Nat} {s s' : VetkeysState} {who : PrincipalKey} {st : AdmissionState}

theorem later (hs : Sound now s) (hle : now ≤ now') : Sound now' s :=
  {hs with
    accounts := fun who => (hs.accounts who).later hle
    window := fun t ht => hs.window t (Nat.le_trans hle ht)}

/-- Nothing else of the state matters. -/
theorem congr (hs : Sound now s) (hadmission : s'.admission = s.admission)
    (hwindow : s'.globalDeriveBudgetWindow = s.globalDeriveBudgetWindow)
    (hhistory : s'.history = s.history) : Sound now s' := by
  refine ⟨fun who => ?_, ?_, ?_, ?_⟩
  · have hof : s'.admissionOf who = s.admissionOf who := by
      unfold VetkeysState.admissionOf
      rw [hadmission]
    rw [hof, hhistory]
    exact hs.accounts who
  · rw [hwindow, hhistory]
    exact hs.window
  · rw [hhistory]
    exact hs.fleet
  · rw [hhistory]
    exact hs.hourly

theorem of_view (hs : Sound now s) (h : s'.deriveView = s.deriveView) : Sound now s' :=
  hs.congr (congrArg DeriveView.admission h) (congrArg DeriveView.globalDeriveBudgetWindow h)
    (congrArg DeriveView.history h)

theorem dispatchedPast (hs : Sound now s) : ∀ d ∈ s.history.dispatched, d.atNs ≤ now :=
  fun d hd => (hs.accounts d.who).dispatchedPast d
    (List.mem_filter.2 ⟨hd, decide_eq_true rfl⟩)

/-- What the fence counts of the fleet is what was dispatched within the hour. -/
theorem retainedCount_eq (hs : Sound now s) :
    s.globalDeriveBudgetWindow.retainedCount now =
      recent globalDeriveWindowNs now (s.history.dispatched.map (·.atNs)) := by
  have hlength := congrArg List.length (hs.window now (Nat.le_refl now))
  rw [List.length_map, List.length_reverse, List.length_map, ← List.countP_eq_length_filter]
    at hlength
  unfold GlobalDeriveWindow.retainedCount recent
  rw [hlength, List.countP_map]
  refine List.countP_congr fun d _ => ?_
  simp only [Function.comp_apply, decide_eq_true_eq]
  exact Nat.not_le

/-- What the fence counts of the principal is what it dispatched within the hour. -/
theorem length_own_eq (hs : Sound now s) (who : PrincipalKey) :
    (s.globalDeriveBudgetWindow.own now who).length =
      recent globalDeriveWindowNs now ((s.history.of who).dispatched.map (·.atNs)) := by
  have hcount := congrArg (List.countP fun e : Option PrincipalKey × Nat => decide (e.1 = some who))
    (hs.window now (Nat.le_refl now))
  rw [List.countP_map, List.countP_reverse, List.countP_map, List.countP_filter] at hcount
  unfold GlobalDeriveWindow.own recent
  rw [List.length_map, ← List.countP_eq_length_filter, List.countP_map]
  refine hcount.trans ?_
  show _ = (s.history.dispatched.filter fun d => decide (d.who = who)).countP _
  rw [List.countP_filter]
  refine List.countP_congr fun d _ => ?_
  simp only [Function.comp_apply, Bool.and_eq_true, decide_eq_true_eq, Option.some.injEq]
  rw [and_comm]
  exact and_congr_left fun _ => Nat.not_le

theorem admissionOf_insert (h : s'.admission = s.admission.insert who st) (p : PrincipalKey) :
    s'.admissionOf p = if p = who then st else s.admissionOf p := by
  unfold VetkeysState.admissionOf
  rw [h, StableMap.get_insert]
  by_cases hp : who = p
  · rw [if_pos hp, if_pos hp.symm]
    rfl
  · rw [if_neg hp, if_neg fun h => hp h.symm]

/-- One principal's state and history move, and its account is kept. -/
theorem move (hs : Sound now s) (who : PrincipalKey) (st : AdmissionState)
    (hadmission : s'.admission = s.admission.insert who st)
    (hwindow : s'.globalDeriveBudgetWindow = s.globalDeriveBudgetWindow)
    (hlog : s'.history.dispatched = s.history.dispatched)
    (hothers : ∀ p, p ≠ who → s'.history.of p = s.history.of p)
    (ha : Account now st (s'.history.of who)) : Sound now s' := by
  refine ⟨fun p => ?_, ?_, ?_, fun p => ?_⟩
  · rw [admissionOf_insert hadmission]
    by_cases hp : p = who
    · rw [if_pos hp, hp]
      exact ha
    · rw [if_neg hp, hothers p hp]
      exact hs.accounts p
  · rw [hwindow, hlog]
    exact hs.window
  · rw [hlog]
    exact hs.fleet
  · have hsame : (s'.history.of p).dispatched = (s.history.of p).dispatched :=
      congrArg (List.filter fun d : Dispatch => decide (d.who = p)) hlog
    rw [hsame]
    exact hs.hourly p

theorem put (hs : Sound now s) (ha : Account now st (s.history.of who)) :
    Sound now (s.putAdmission who st) :=
  hs.move who _ rfl rfl rfl (fun _ _ => rfl) ha

theorem putSame (hs : Sound now s) : Sound now (s.putAdmission who (s.admissionOf who)) :=
  hs.put (hs.accounts who)

end Sound

/-! ### The steps of a derive -/

/-- Every reservation that an admission of the principal would charge was made when its call was
dispatched, and the numbers of its reservations have not run out. -/
def ChargesAtDispatch (nowNs : Nat) (who : PrincipalKey) (s : VetkeysState) : Prop :=
  (s.admissionOf who).nextReservationId < u64Max ∧
    ∀ r ∈ (s.admissionOf who).reservations, AdmissionState.StaleDispatched nowNs r →
      ∀ d ∈ s.history.dispatched, d.who = who → d.id = r.id → d.atNs = r.createdAtNs

instance (nowNs : Nat) (who : PrincipalKey) (s : VetkeysState) :
    Decidable (ChargesAtDispatch nowNs who s) :=
  inferInstanceAs (Decidable (_ ∧ ∀ r ∈ _, _ → ∀ d ∈ _, _ → _ → _))

namespace Sound
variable {now id : Nat} {s : VetkeysState} {who : PrincipalKey}

theorem swept (hs : Sound now s) (hat : ChargesAtDispatch now who s) :
    Account now ((s.admissionOf who).swept now) {s.history.of who with
      charged := ((s.admissionOf who).staleDispatched now).map (·.id) ++
        (s.history.of who).charged} := by
  refine (hs.accounts who).swept fun r hr hstale d hd hid => ?_
  rw [History.of, List.mem_filter, decide_eq_true_eq] at hd
  exact hat.2 r hr hstale d hd.1 hd.2 hid

theorem preflightCall {caller : PrincipalBytes} (hs : Sound now s)
    (hat : (meterAdmit now caller s.meter).1 = .ok () →
      ChargesAtDispatch now (PrincipalKey.new caller) s) :
    Sound now (s.preflightCall now caller).2 := by
  unfold VetkeysState.preflightCall preflight
  generalize PrincipalKey.new caller = who at hat ⊢
  cases hmeter : meterAdmit now caller s.meter with
  | mk answer meter =>
    cases answer with
    | error rejection => exact hs.move who _ rfl rfl rfl (fun _ _ => rfl) (hs.accounts who)
    | ok _ =>
      have hat := hat (by rw [hmeter])
      have hswept := hs.swept hat
      simp only [AdmissionState.tryAdmit]
      by_cases hfull : deriveQuota ≤ ((s.admissionOf who).swept now).used
      · simp only [if_pos hfull]
        refine hs.move who _ rfl rfl rfl (fun p hp => ?_) ?_
        · exact congrArg (PrincipalHistory.mk _ _ _) (History.own_append_ne hp _)
        · simpa [History.of, VetkeysState.noteCharged] using hswept
      · simp only [if_neg hfull]
        refine hs.move who _ rfl rfl rfl (fun p hp => ?_) ?_
        · simp [History.of, VetkeysState.noteCharged, History.own_cons_ne hp,
            History.own_append_ne hp]
        · have hreserve := hswept.reserve (Nat.lt_of_not_le hfull) hat.1
          simpa [History.of, VetkeysState.noteCharged] using hreserve

theorem releaseCall_history : (s.releaseCall who id).history = {s.history with
    released := if ((s.admissionOf who).release id).1 then (who, id) :: s.history.released
      else s.history.released} := rfl

theorem releaseCall (hs : Sound now s) : Sound now (s.releaseCall who id) := by
  have hrelease := (hs.accounts who).release id
  refine hs.move who ((s.admissionOf who).release id).2 rfl rfl rfl (fun p hp => ?_) ?_
  · rw [releaseCall_history]
    split
    · exact congrArg (PrincipalHistory.mk _ _ · _) (History.own_cons_ne hp)
    · rfl
  · rw [releaseCall_history]
    cases hany : ((s.admissionOf who).release id).1 with
    | false =>
      rw [hany] at hrelease
      exact hrelease
    | true =>
      rw [hany] at hrelease
      simpa [History.of] using hrelease

theorem finalize (hs : Sound now s) (who : PrincipalKey) (id : Nat) :
    Sound now (s.putAdmission who ((s.admissionOf who).finalize now id).2) :=
  hs.put ((hs.accounts who).finalize)

/-- The fleet's window after a dispatch. -/
theorem window_commit (firstDerive : Bool) (t : Nat) (ht : now ≤ t) :
    ((s.globalDeriveBudgetWindow.pruneWindow now).recordDispatch now who firstDerive).retained t =
      s.globalDeriveBudgetWindow.retained t ++
        ([⟨now, some who, firstDerive⟩] : List DispatchRecord).filter
          fun r => decide ¬GlobalDeriveWindow.Expired t r.atNs := by
  unfold GlobalDeriveWindow.recordDispatch GlobalDeriveWindow.pruneWindow
    GlobalDeriveWindow.retained
  rw [List.filter_append, List.filter_filter]
  congr 1
  refine List.filter_congr fun r _ => ?_
  unfold GlobalDeriveWindow.Expired
  by_cases hold : globalDeriveWindowNs ≤ t - r.atNs
  · simp [hold]
  · have hyoung : ¬globalDeriveWindowNs ≤ now - r.atNs := by omega
    simp [hold, hyoung]

/-- A fence that commits: its reservation waited, and there was room in all three windows. -/
theorem commitDispatch (hs : Sound now s) {liquid liveCost : Nat} {st' : AdmissionState}
    (hfence : fenceDecide now id liquid liveCost (s.admissionOf who) s.globalDeriveBudgetWindow who =
      .commit) (hst : (s.admissionOf who).revalidateForDispatch id = some st') (firstDerive : Bool) :
    Sound now (s.commitDispatch now who id firstDerive st') := by
  obtain ⟨-, hown, hfleet⟩ := fenceDecide_commit hfence
  rw [hs.length_own_eq] at hown
  rw [hs.retainedCount_eq] at hfleet
  have hof {p : PrincipalKey} (hp : p ≠ who) :
      (s.commitDispatch now who id firstDerive st').history.of p = s.history.of p := by
    simp [VetkeysState.commitDispatch, History.of, hp.symm]
  have hself : ((s.commitDispatch now who id firstDerive st').history.of who) =
      {s.history.of who with dispatched := ⟨who, id, now⟩ :: (s.history.of who).dispatched} := by
    simp [VetkeysState.commitDispatch, History.of]
  have hput : ∀ p, (s.commitDispatch now who id firstDerive st').admissionOf p =
      if p = who then st' else s.admissionOf p := admissionOf_insert rfl
  refine ⟨fun p => ?_, fun t ht => ?_, ?_, fun p => ?_⟩
  · rw [hput]
    by_cases hp : p = who
    · rw [if_pos hp, hp, hself]
      exact (hs.accounts who).dispatch hst who
    · rw [if_neg hp, hof hp]
      exact hs.accounts p
  · show List.map _ (((s.globalDeriveBudgetWindow.pruneWindow now).recordDispatch now who
      firstDerive).retained t) = (List.map _ (List.filter _ (⟨who, id, now⟩ ::
        s.history.dispatched))).reverse
    rw [window_commit firstDerive t ht, List.map_append, hs.window t ht]
    by_cases hold : GlobalDeriveWindow.Expired t now
    · simp [hold]
    · simp [hold]
  · exact hs.fleet.push (fun t ht => by
      obtain ⟨d, hd, rfl⟩ := List.mem_map.1 ht
      exact hs.dispatchedPast d hd) hfleet
  · by_cases hp : p = who
    · subst hp
      rw [hself]
      refine (hs.hourly p).push (fun t ht => ?_) hown
      obtain ⟨d, hd, rfl⟩ := List.mem_map.1 ht
      exact (hs.accounts p).dispatchedPast d hd
    · rw [hof hp]
      exact hs.hourly p

theorem dispatchFence (hs : Sound now s) (who : PrincipalKey) (id : Nat) (firstDerive : Bool)
    (live : Live) :
    Sound now (s.dispatchFence now who id firstDerive live).2 := by
  unfold VetkeysState.dispatchFence
  cases resolveLiveCost live.liquid live.cost with
  | error e => exact hs
  | ok liveCost =>
    simp only
    cases hfence : fenceDecide now id live.liquid liveCost (s.admissionOf who)
        s.globalDeriveBudgetWindow who with
    | refuse e => exact hs.putSame
    | commit =>
      simp only
      cases hst : (s.admissionOf who).revalidateForDispatch id with
      | none => exact hs.putSame
      | some st' => exact hs.commitDispatch hfence hst firstDerive

end Sound

/-! ### Messages -/

/-- The state a message commits is sound. -/
def Keeps (now : Nat) (o : VetkeysOutcome) : Prop := ∀ s, o.state? = some s → Sound now s

section Messages
variable {D : Deployment} {now : Nat} {s : VetkeysState} {caller : PrincipalBytes}
  {transportKey : Bytes} {admitted : Admitted} {live : Live}

theorem keeps_reply (hs : Sound now s) {a : Answer} : Keeps now (.reply s a) := by
  intro s' h
  cases h
  exact hs

theorem keeps_trap : Keeps now .trap := fun _ h => nomatch h

theorem keeps_refuse (hs : Sound now s) (who : PrincipalKey) (e : VetkeysError) :
    Keeps now (refuseReleasing who admitted e s) := keeps_reply hs.releaseCall

theorem sound_countRefusal (hs : Sound now s) (e : VetkeysError) : Sound now (s.countRefusal e) := by
  unfold VetkeysState.countRefusal
  cases e <;> exact hs.congr rfl rfl rfl

theorem sound_countAgeRefusal (hs : Sound now s) (began : Bool) :
    Sound now (s.countAgeRefusal began) := hs.congr rfl rfl rfl

theorem keeps_dispatchDerive (hs : Sound now s) (firstDerive : Bool) :
    Keeps now (dispatchDerive now caller transportKey admitted firstDerive live s) := by
  unfold dispatchDerive
  cases live.readRefused with
  | some reason => exact keeps_refuse hs _ _
  | none =>
    have hfence := hs.dispatchFence (PrincipalKey.new caller) admitted.reservationId firstDerive live
    simp only
    generalize s.dispatchFence now (PrincipalKey.new caller) admitted.reservationId firstDerive
      live = fenced at hfence ⊢
    obtain ⟨r, s'⟩ := fenced
    cases r with
    | error e => exact keeps_refuse (sound_countRefusal hfence e) _ _
    | ok _ =>
      intro t ht
      cases ht
      exact hfence

theorem keeps_deriveAdmitted (hs : Sound now s) :
    Keeps now (deriveAdmitted now caller transportKey admitted live s) := by
  unfold deriveAdmitted
  split
  · exact keeps_dispatchDerive hs false
  · cases s.tokenCanister with
    | none => exact keeps_refuse hs _ _
    | some token =>
      intro t ht
      cases ht
      exact hs

/-- A derive is charged, where it is, for calls dispatched when their reservations were made. -/
theorem keeps_getEncryptedVetkey (hs : Sound now s)
    (hat : checkDerive D caller transportKey live = .ok () →
      (meterAdmit now caller s.meter).1 = .ok () →
        ChargesAtDispatch now (PrincipalKey.new caller) s) :
    Keeps now (getEncryptedVetkey D now caller transportKey live s) := by
  unfold getEncryptedVetkey
  cases hcheck : checkDerive D caller transportKey live with
  | error e => exact keeps_reply hs
  | ok _ =>
    have hflight := hs.preflightCall (hat hcheck)
    simp only
    generalize s.preflightCall now caller = preflighted at hflight ⊢
    obtain ⟨r, s'⟩ := preflighted
    cases r with
    | error e => exact keeps_reply hflight
    | ok admitted => exact keeps_deriveAdmitted hflight

theorem keeps_eligibilityDecided (hs : Sound now s) :
    Keeps now (eligibilityDecided now caller transportKey admitted live s) := by
  unfold eligibilityDecided
  simp only
  cases Sightings.decide now (PrincipalKey.new caller) s.eligibilitySightings with
  | none => exact keeps_trap
  | some p =>
    obtain ⟨outcome, table⟩ := p
    simp only
    have htable : Sound now {s with eligibilitySightings := table} := hs.congr rfl rfl rfl
    cases outcome with
    | admitted => exact keeps_dispatchDerive htable true
    | inserted => exact keeps_refuse (sound_countAgeRefusal htable true) _ _
    | renewed => exact keeps_refuse (sound_countAgeRefusal htable true) _ _
    | notYet retryAfterNs => exact keeps_refuse (sound_countAgeRefusal htable false) _ _
    | anomalous retryAfterNs => exact keeps_refuse (sound_countAgeRefusal htable false) _ _

theorem keeps_eligibilityAnswered (hs : Sound now s) (r : Reply) :
    Keeps now (eligibilityAnswered D now caller transportKey admitted r s) := by
  unfold eligibilityAnswered
  cases r.body with
  | balance amount =>
    simp only
    split
    · exact keeps_refuse hs _ _
    · exact keeps_eligibilityDecided hs
  | rejected e => exact keeps_refuse hs _ _
  | key encryptedKey => exact keeps_refuse hs _ _

theorem mintTicket_view (now : Nat) (who : PrincipalKey) (s : VetkeysState) :
    (s.mintTicket now who).deriveView = s.deriveView := by
  unfold VetkeysState.mintTicket
  split <;> rfl

theorem sound_establish (hs : Sound now s) {who : PrincipalKey} {s' : VetkeysState}
    (h : s.establish now who = some s') : Sound now s' := by
  obtain ⟨table, -, rfl⟩ := Option.map_eq_some_iff.1 h
  exact hs.congr rfl rfl rfl

theorem keeps_deriveAnswered (hs : Sound now s) (r : Reply) :
    Keeps now (deriveAnswered now caller admitted r s) := by
  unfold deriveAnswered
  cases r.body with
  | balance amount => exact keeps_trap
  | rejected e => exact keeps_trap
  | key encryptedKey =>
    have hfinal := hs.finalize (PrincipalKey.new caller) admitted.reservationId
    simp only
    generalize (s.admissionOf (PrincipalKey.new caller)).finalize now admitted.reservationId =
      finalized at hfinal ⊢
    obtain ⟨live, st⟩ := finalized
    cases live with
    | false => exact keeps_reply hfinal
    | true =>
      have hminted := hfinal.of_view (mintTicket_view now (PrincipalKey.new caller) _)
      simp only
      cases hestablish : ((s.putAdmission (PrincipalKey.new caller) st).mintTicket now
          (PrincipalKey.new caller)).establish now (PrincipalKey.new caller) with
      | none => exact keeps_trap
      | some s' => exact keeps_reply (sound_establish hminted hestablish)

end Messages

/-! ### Runs -/

/-- The condition a step meets: an admission pass charges no reservation whose call was
dispatched later than it was made, and has a number left to give. -/
def DispatchedWhenMade (D : Deployment) (w : VetkeysWorld) : Event Input Reply → Prop
  | .call (.getEncryptedVetkey caller transportKey live) =>
    checkDerive D caller transportKey live = .ok () →
      (meterAdmit w.now caller w.state.meter).1 = .ok () →
        ChargesAtDispatch w.now (PrincipalKey.new caller) w.state
  | _ => True

section Runs
variable {D : Deployment} {w w' : VetkeysWorld} {e : Event Input Reply}

theorem sound_installed (h : Installed w) : Sound w.now w.state := by
  obtain ⟨token, hstate⟩ := h.state_eq
  have hfresh : Sound w.now .fresh :=
    ⟨fun _ => Account.default, fun _ _ => rfl, spaced_nil, fun _ => spaced_nil⟩
  rw [hstate]
  exact hfresh.congr rfl rfl rfl

theorem lands_state {o : VetkeysOutcome} {v v' : VetkeysWorld} (h : Lands anyCallees v o v') :
    o.state? = some v'.state ∧ v'.now = v.now := by
  cases h with
  | reply => exact ⟨rfl, rfl⟩
  | call _ => exact ⟨rfl, rfl⟩

theorem sound_lands {o : VetkeysOutcome} {v v' : VetkeysWorld} (hk : Keeps v.now o)
    (h : Lands anyCallees v o v') : Sound v'.now v'.state := by
  obtain ⟨hstate, hnow⟩ := lands_state h
  rw [hnow]
  exact hk _ hstate

theorem keeps_start {i : Input} (hs : Sound w.now w.state)
    (hok : DispatchedWhenMade D w (.call i)) : Keeps w.now (start D w.now i w.state) := by
  cases i with
  | getEncryptedVetkey caller transportKey live => exact keeps_getEncryptedVetkey hs hok
  | registerDevice caller args => exact fun t ht => hs.of_view (start_deriveView ht nofun)
  | revokeDevice caller deviceId approval =>
    exact fun t ht => hs.of_view (start_deriveView ht nofun)
  | replaceEnvelope caller deviceId newEnvelope approval =>
    exact fun t ht => hs.of_view (start_deriveView ht nofun)
  | setDeviceApprovalPolicy caller require approval =>
    exact fun t ht => hs.of_view (start_deriveView ht nofun)
  | requestDeviceApprovalPolicyClear caller =>
    exact fun t ht => hs.of_view (start_deriveView ht nofun)
  | authorizeReBootstrap caller target approval =>
    exact fun t ht => hs.of_view (start_deriveView ht nofun)

theorem keeps_resume {now : Nat} {s : VetkeysState} (hs : Sound now s) (k : VetkeysTask)
    (r : Reply) : Keeps now (resume D now k r s) := by
  cases k with
  | eligibility caller transportKey admitted => exact keeps_eligibilityAnswered hs r
  | derive caller admitted => exact keeps_deriveAnswered hs r

theorem sound_step (hs : Sound w.now w.state) (hok : DispatchedWhenMade D w e)
    (hstep : (canister D).Step anyCallees w e w') : Sound w'.now w'.state := by
  cases hstep with
  | call hl => exact sound_lands (keeps_start hs hok) hl
  | callTrap => exact hs
  | reply hk hr hl => exact sound_lands (v := w.finish _) (keeps_resume hs _ _) hl
  | replyTrap hk hr htrap => exact hs
  | upgrade h =>
    cases h
    exact hs.congr rfl rfl rfl
  | wait h => exact hs.later h
  | elsewhere h => exact hs
  | others h =>
    obtain ⟨token, htoken⟩ := h
    rw [setTokenCanister_eq htoken]
    exact hs.congr rfl rfl rfl

theorem run_sound (run : (system D).RunIf (DispatchedWhenMade D) w) : Sound w.now w.state :=
  run.invariant (fun _ h => sound_installed h) fun _ _ _ _ hs hok hstep => sound_step hs hok hstep

end Runs

/-! ### What is claimed of the states of runs -/

/-- Whatever answers the call of a charged reservation, there is no key, no ticket and no
established bit. -/
def LateRepliesLapse (D : Deployment) (w : VetkeysWorld) : Prop :=
  ∀ t caller admitted now r, w.tasks t = some (.derive caller admitted) →
    (PrincipalKey.new caller, admitted.reservationId) ∈ w.state.history.charged →
      resume D now (.derive caller admitted) r w.state = .trap ∨
        ∃ s, resume D now (.derive caller admitted) r w.state =
            .reply s (.key (.error .admissionLapsed)) ∧
          s.bootstrapTickets = w.state.bootstrapTickets ∧ s.established = w.state.established

theorem Sound.late {D : Deployment} {now₀ : Nat} {w : VetkeysWorld} (hs : Sound now₀ w.state) :
    LateRepliesLapse D w := by
  intro t caller admitted now r _ hcharged
  have hgone := (hs.accounts (PrincipalKey.new caller)).chargedGone admitted.reservationId
    (History.mem_own.2 hcharged)
  simp only [resume, deriveAnswered]
  cases r.body with
  | balance amount => exact .inl rfl
  | rejected e => exact .inl rfl
  | key encryptedKey =>
    have hsame : ((w.state.admissionOf (PrincipalKey.new caller)).reservations.filter
        fun r => decide (r.id ≠ admitted.reservationId)).length =
          (w.state.admissionOf (PrincipalKey.new caller)).reservations.length := by
      refine List.length_filter_eq_length_iff.2 fun r hr => decide_eq_true fun hid => hgone ?_
      exact List.mem_map.2 ⟨r, hr, hid⟩
    simp only [AdmissionState.finalize, if_pos hsame]
    exact .inr ⟨_, rfl, rfl, rfl⟩

section Sample

/-- The encoding of a point of the right group. -/
def sampleTransportKey : Bytes :=
  [0x97, 0xf1, 0xd3, 0xa7, 0x31, 0x97, 0xd7, 0x94, 0x26, 0x95, 0x63, 0x8c,
   0x4f, 0xa9, 0xac, 0x0f, 0xc3, 0x68, 0x8c, 0x4f, 0x97, 0x74, 0xb9, 0x05,
   0xa1, 0x4e, 0x3a, 0x3f, 0x17, 0x1b, 0xac, 0x58, 0x6c, 0x55, 0xe8, 0x3f,
   0xf9, 0x7a, 0x1a, 0xef, 0xfb, 0x3a, 0xf0, 0x0a, 0xdb, 0x22, 0xc6, 0xbb]

def sampleCaller : PrincipalBytes := ⟨[1, 2, 3], by decide⟩

def sampleToken : PrincipalBytes := .single 9

def sampleDigest : Hash32 := ⟨List.replicate 32 0, List.length_replicate⟩

/-- No device signs in these runs, and one transport key is used. -/
def sampleDeployment : Deployment where
  self := .single 7
  sha256 _ := sampleDigest
  p256 := ⟨fun _ => false, fun _ => false, fun _ => false, fun _ _ _ => false⟩
  validTransportKey k := k == sampleTransportKey
  undecodable := "undecodable"

def sampleLive : Live := ⟨1_000_000_000_000, .ok 26_153_846_154, none⟩

/-- Callees that answer anything at any time. -/
def anyPlayer : Player anyCallees Unit where
  take _ _ e := e
  take_ok _ _ _ := trivial
  answers _ _ _ := true
  answers_ok _ _ _ _ := trivial
  play _ e := some e
  play_ok _ _ _ _ := trivial

def sampleWorld : VetkeysWorld where
  now := 0
  state := {VetkeysState.fresh with tokenCanister := some sampleToken}
  env := ()
  tasks := fun _ => none
  next := 0

theorem sampleWorld_installed : Installed sampleWorld :=
  ⟨⟨some sampleToken, rfl⟩, rfl⟩

/-- The principal asks for its key. -/
def ask : Move Input Reply Unit := .call (.getEncryptedVetkey sampleCaller sampleTransportKey sampleLive)

/-- The ledger answers a balance at the floor to this call. -/
def funded (task : Nat) : Move Input Reply Unit :=
  .reply task ⟨.balance eligibilityMinBalanceE8s, sampleLive⟩

def hourNs : Nat := 3_600_000_000_000

instance (D : Deployment) (w : VetkeysWorld) (e : Event Input Reply) :
    Decidable (DispatchedWhenMade D w e) :=
  match e with
  | .call (.getEncryptedVetkey ..) => inferInstanceAs (Decidable (_ → _ → _))
  | .call (.registerDevice ..) | .call (.revokeDevice ..) | .call (.replaceEnvelope ..)
  | .call (.setDeviceApprovalPolicy ..) | .call (.requestDeviceApprovalPolicyClear _)
  | .call (.authorizeReBootstrap ..) | .reply .. | .upgrade | .wait | .elsewhere | .others =>
    isTrue trivial

/-- A sighting, and when it is old enough a derive that comes to its end. -/
def deriveMoves : List (Move Input Reply Unit) :=
  [ask, funded 0, .wait hourNs, ask, funded 1, .reply 2 ⟨.key [5], sampleLive⟩]

end Sample

end StshProtocol.Vetkeys
