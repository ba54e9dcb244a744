import StshProtocol.Vetkeys.Enrolment
import StshProtocol.Vetkeys.SightingTable

/-! The age of a balance, and the first derives it admits.

The one message that writes a sighting takes up an answer of the token ledger, and was sent for
a principal not established then. If the principal has not been established since, either,
sightings are of principals that are not established; a first derive is dispatched on a sighting
old enough, which was another answer of the ledger for the principal. A principal established
while its other call waited is sighted anew, and refused for its age. -/
namespace StshProtocol.Vetkeys
open Foundation ShieldedPool Vesting Sightings

/-! ### What one message does -/

/-- What first derives are decided by. -/
structure FirstView where
  established : StableMap PrincipalKey Nat
  sightings : Table
  dispatched : List Dispatch

def VetkeysState.firstView (s : VetkeysState) : FirstView where
  established := s.established
  sightings := s.eligibilitySightings
  dispatched := s.history.dispatched

section Messages
variable {D : Deployment} {nowNs : Nat} {caller : PrincipalBytes} {transportKey : Bytes}
  {admitted : Admitted} {live : Live} {s s' t : VetkeysState} {o : VetkeysOutcome}

/-- A message ends for its caller: it is refused, for no age, or its derive is dispatched. -/
inductive Ends (nowNs : Nat) (caller : PrincipalBytes) (v : FirstView) : VetkeysOutcome → Prop
  | refused {t : VetkeysState} {e : VetkeysError} (hview : t.firstView = v)
      (he : ∀ n, e ≠ .eligibilityAgeNotMet n) : Ends nowNs caller v (.reply t (.key (.error e)))
  | dispatched {t : VetkeysState} {admitted : Admitted} {transportKey : Bytes} {id : Nat}
      (hview : t.firstView = {v with dispatched := ⟨PrincipalKey.new caller, id, nowNs⟩ :: v.dispatched}) :
      Ends nowNs caller v (.call t (.derive caller admitted) (.deriveKey caller transportKey))

theorem refuseReleasing_ends {e : VetkeysError} (he : ∀ n, e ≠ .eligibilityAgeNotMet n) :
    Ends nowNs caller s.firstView (refuseReleasing (PrincipalKey.new caller) admitted e s) :=
  .refused rfl he

theorem resolveLiveCost_error {liquid : Nat} {cost : Except String Nat} {e : VetkeysError}
    (h : resolveLiveCost liquid cost = .error e) : ∀ n, e ≠ .eligibilityAgeNotMet n := by
  intro n
  unfold resolveLiveCost at h
  cases cost with
  | ok c => exact nomatch h
  | error reason =>
    cases h
    exact nofun

theorem fenceDecide_refuse {id liquid liveCost : Nat} {st : AdmissionState}
    {win : GlobalDeriveWindow} {who : PrincipalKey} {e : VetkeysError}
    (h : fenceDecide nowNs id liquid liveCost st win who = .refuse e) :
    ∀ n, e ≠ .eligibilityAgeNotMet n := by
  intro n
  unfold fenceDecide at h
  repeat' split at h
  all_goals cases h
  all_goals exact nofun

theorem dispatchFence_first (nowNs : Nat) (live : Live) (s : VetkeysState) (who : PrincipalKey)
    (id : Nat) (firstDerive : Bool) :
    (∃ e s', s.dispatchFence nowNs who id firstDerive live = (.error e, s') ∧
      s'.firstView = s.firstView ∧ ∀ n, e ≠ .eligibilityAgeNotMet n) ∨
    ∃ s', s.dispatchFence nowNs who id firstDerive live = (.ok (), s') ∧
      s'.firstView = {s.firstView with dispatched := ⟨who, id, nowNs⟩ :: s.history.dispatched} := by
  unfold VetkeysState.dispatchFence
  cases hcost : resolveLiveCost live.liquid live.cost with
  | error e => exact .inl ⟨e, s, rfl, rfl, resolveLiveCost_error hcost⟩
  | ok liveCost =>
    simp only
    cases hfence : fenceDecide nowNs id live.liquid liveCost (s.admissionOf who)
        s.globalDeriveBudgetWindow who with
    | refuse e => exact .inl ⟨e, _, rfl, rfl, fenceDecide_refuse hfence⟩
    | commit =>
      simp only
      cases (s.admissionOf who).revalidateForDispatch id with
      | none => exact .inl ⟨_, _, rfl, rfl, nofun⟩
      | some st => exact .inr ⟨_, rfl, rfl⟩

theorem countRefusal_first (e : VetkeysError) : (s.countRefusal e).firstView = s.firstView := by
  cases e <;> rfl

theorem dispatchDerive_ends (firstDerive : Bool) : Ends nowNs caller s.firstView
    (dispatchDerive nowNs caller transportKey admitted firstDerive live s) := by
  unfold dispatchDerive
  cases live.readRefused with
  | some reason => exact refuseReleasing_ends nofun
  | none =>
    simp only
    have hfirst := dispatchFence_first nowNs live s (PrincipalKey.new caller)
      admitted.reservationId firstDerive
    rcases hfirst with ⟨e, s', hfence, hview, he⟩ | ⟨s', hfence, hview⟩
    · rw [hfence]
      exact .refused ((countRefusal_first e).trans hview) he
    · rw [hfence]
      exact .dispatched hview

theorem checkDerive_error {e : VetkeysError} (h : checkDerive D caller transportKey live = .error e) :
    ∀ n, e ≠ .eligibilityAgeNotMet n := by
  intro n
  have thrown : ∀ {x : VetkeysError}, (Except.error x : Except VetkeysError Unit) = .error e →
      (∀ n, x ≠ .eligibilityAgeNotMet n) → e ≠ .eligibilityAgeNotMet n :=
    fun heq hx => Except.error.inj heq ▸ hx n
  unfold checkDerive at h
  simp only [bind, Except.bind, pure, Except.pure, throw, throwThe, MonadExceptOf.throw] at h
  by_cases hanonymous : caller = .anonymous
  · rw [if_pos hanonymous] at h
    exact thrown h nofun
  rw [if_neg hanonymous] at h
  cases hcost : resolveLiveCost live.liquid live.cost with
  | error e' =>
    rw [hcost] at h
    exact thrown h (resolveLiveCost_error hcost)
  | ok liveCost =>
    rw [hcost] at h
    simp only at h
    by_cases hfloor : ¬cycleFloorAdmits live.liquid liveCost
    · rw [if_pos hfloor] at h
      exact thrown h nofun
    rw [if_neg hfloor] at h
    by_cases hkey : ¬D.validTransportKey transportKey
    · rw [if_pos hkey] at h
      exact thrown h nofun
    · rw [if_neg hkey] at h
      exact nomatch h

theorem preflightCall_first (nowNs : Nat) (caller : PrincipalBytes) (s : VetkeysState) :
    (s.preflightCall nowNs caller).2.firstView = s.firstView ∧
      ∀ e, (s.preflightCall nowNs caller).1 = .error e → ∀ n, e ≠ .eligibilityAgeNotMet n := by
  simp only [VetkeysState.preflightCall]
  generalize preflight nowNs caller s.meter (s.admissionOf (PrincipalKey.new caller)) = out
  obtain ⟨r, meter, st⟩ := out
  cases r with
  | ok admitted => exact ⟨rfl, fun e h => by cases h⟩
  | error e =>
    cases e with
    | meter rejection =>
      refine ⟨rfl, fun e h n => ?_⟩
      cases h
      simp
    | quota retryAfterNs =>
      refine ⟨rfl, fun e h n => ?_⟩
      cases h
      simp

/-- A derive that is called ends at once, dispatched only if the principal is established, or asks
for the balance. -/
inductive Began (nowNs : Nat) (caller : PrincipalBytes) (v : FirstView) : VetkeysOutcome → Prop
  | ended {o : VetkeysOutcome} (h : Ends nowNs caller v o)
      (hestablished : ∀ t k q, o = .call t k q → v.established.contains (PrincipalKey.new caller) = true) :
      Began nowNs caller v o
  | asked {t : VetkeysState} {transportKey : Bytes} {admitted : Admitted} {token : PrincipalBytes}
      (hview : t.firstView = v) :
      Began nowNs caller v (.call t (.eligibility caller transportKey admitted) (.balanceOf token caller))

theorem deriveAdmitted_began : Began nowNs caller s.firstView
    (deriveAdmitted nowNs caller transportKey admitted live s) := by
  unfold deriveAdmitted
  by_cases hestablished : s.established.contains (PrincipalKey.new caller)
  · rw [if_pos hestablished]
    exact .ended (dispatchDerive_ends false) fun _ _ _ _ => hestablished
  · rw [if_neg hestablished]
    cases s.tokenCanister with
    | none => exact .ended (refuseReleasing_ends nofun) fun _ _ _ h => nomatch h
    | some token => exact .asked rfl

theorem getEncryptedVetkey_began : Began nowNs caller s.firstView
    (getEncryptedVetkey D nowNs caller transportKey live s) := by
  unfold getEncryptedVetkey
  cases hcheck : checkDerive D caller transportKey live with
  | error e => exact .ended (.refused rfl (checkDerive_error hcheck)) fun _ _ _ h => nomatch h
  | ok _ =>
    have hview := preflightCall_first nowNs caller s
    simp only
    generalize s.preflightCall nowNs caller = out at hview ⊢
    obtain ⟨r, s'⟩ := out
    cases r with
    | error e => exact .ended (.refused hview.1 (hview.2 e rfl)) fun _ _ _ h => nomatch h
    | ok admitted => exact hview.1 ▸ deriveAdmitted_began

/-- What the answer of the ledger comes to: nothing is decided, or the table decides. -/
inductive Weighed (nowNs : Nat) (caller : PrincipalBytes) (r : Reply) (s : VetkeysState) :
    VetkeysOutcome → Prop
  | undecided {t : VetkeysState} {e : VetkeysError} (hview : t.firstView = s.firstView)
      (he : ∀ n, e ≠ .eligibilityAgeNotMet n) : Weighed nowNs caller r s (.reply t (.key (.error e)))
  | trapped {amount : Nat} (hbody : r.body = .balance amount) (hfloor : eligibilityMinBalanceE8s ≤ amount)
      (h : Sightings.decide nowNs (PrincipalKey.new caller) s.eligibilitySightings = none) :
      Weighed nowNs caller r s .trap
  | passed {amount : Nat} {table : Table} {o : VetkeysOutcome} (hbody : r.body = .balance amount)
      (hfloor : eligibilityMinBalanceE8s ≤ amount)
      (h : Sightings.decide nowNs (PrincipalKey.new caller) s.eligibilitySightings =
        some (.admitted, table))
      (hends : Ends nowNs caller {s.firstView with sightings := table} o) : Weighed nowNs caller r s o
  | aged {amount n : Nat} {outcome : SightingOutcome} {table : Table} {t : VetkeysState}
      (hbody : r.body = .balance amount) (hfloor : eligibilityMinBalanceE8s ≤ amount)
      (h : Sightings.decide nowNs (PrincipalKey.new caller) s.eligibilitySightings =
        some (outcome, table)) (hne : outcome ≠ .admitted)
      (hview : t.firstView = {s.firstView with sightings := table}) :
      Weighed nowNs caller r s (.reply t (.key (.error (.eligibilityAgeNotMet n))))

theorem eligibilityAnswered_weighed {r : Reply} : Weighed nowNs caller r s
    (eligibilityAnswered D nowNs caller transportKey admitted r s) := by
  unfold eligibilityAnswered
  cases hbody : r.body with
  | rejected e => exact .undecided rfl nofun
  | key k => exact .undecided rfl nofun
  | balance amount =>
    simp only
    by_cases hfloor : amount < eligibilityMinBalanceE8s
    · rw [if_pos hfloor]
      exact .undecided rfl nofun
    rw [if_neg hfloor, eligibilityDecided]
    have hfloor' := Nat.le_of_not_lt hfloor
    simp only
    cases hdecide : Sightings.decide nowNs (PrincipalKey.new caller) s.eligibilitySightings with
    | none => exact .trapped hbody hfloor' hdecide
    | some out =>
      obtain ⟨outcome, table⟩ := out
      cases outcome with
      | admitted =>
        let s' : VetkeysState := {s with eligibilitySightings := table}
        have hends : Ends nowNs caller s'.firstView
            (dispatchDerive nowNs caller transportKey admitted true r.live s') := dispatchDerive_ends true
        exact .passed hbody hfloor' hdecide hends
      | inserted | renewed | notYet | anomalous => exact .aged hbody hfloor' hdecide nofun rfl

/-- What the platform's answer comes to. -/
inductive Finished (nowNs : Nat) (caller : PrincipalBytes) (s : VetkeysState) : VetkeysOutcome → Prop
  | refused : Finished nowNs caller s .trap
  | lapsed {t : VetkeysState} (hview : t.firstView = s.firstView) :
      Finished nowNs caller s (.reply t (.key (.error .admissionLapsed)))
  | trapped (h : clearOnSuccess (PrincipalKey.new caller) s.eligibilitySightings = none) :
      Finished nowNs caller s .trap
  | converted {t : VetkeysState} {table : Table} {a : EncryptedVetKeyReply}
      (h : clearOnSuccess (PrincipalKey.new caller) s.eligibilitySightings = some table)
      (hview : t.firstView = {s.firstView with
        established := s.established.insert (PrincipalKey.new caller) nowNs, sightings := table}) :
      Finished nowNs caller s (.reply t (.key (.ok a)))

theorem deriveAnswered_finished {r : Reply} :
    Finished nowNs caller s (deriveAnswered nowNs caller admitted r s) := by
  unfold deriveAnswered
  cases hbody : r.body with
  | balance amount => exact .refused
  | rejected e => exact .refused
  | key encryptedKey =>
    simp only
    generalize (s.admissionOf (PrincipalKey.new caller)).finalize nowNs admitted.reservationId = out
    obtain ⟨found, st⟩ := out
    cases found with
    | false => exact .lapsed rfl
    | true =>
      simp only
      have hmint : ((s.putAdmission (PrincipalKey.new caller) st).mintTicket nowNs
          (PrincipalKey.new caller)).firstView = s.firstView := by
        unfold VetkeysState.mintTicket
        split <;> rfl
      generalize (s.putAdmission (PrincipalKey.new caller) st).mintTicket nowNs
        (PrincipalKey.new caller) = s₁ at hmint ⊢
      have hsightings : s₁.eligibilitySightings = s.eligibilitySightings :=
        congrArg FirstView.sightings hmint
      have hestablished : s₁.established = s.established := congrArg FirstView.established hmint
      have hdispatched : s₁.history.dispatched = s.history.dispatched :=
        congrArg FirstView.dispatched hmint
      rw [VetkeysState.establish, hsightings]
      cases hclear : clearOnSuccess (PrincipalKey.new caller) s.eligibilitySightings with
      | none => exact .trapped hclear
      | some table =>
        refine .converted hclear ?_
        simp only [VetkeysState.firstView, hestablished, hdispatched]

end Messages

/-! ### What is so between messages -/

/-- A derive of the principal has been dispatched. -/
def FirstView.Dispatched (v : FirstView) (who : PrincipalKey) : Prop := ∃ d ∈ v.dispatched, d.who = who

/-- The table is exact and not too large, each sighting in it was an answer of the ledger, whoever
is established has had a derive dispatched, and has no sighting. -/
structure Aged (v : FirstView) (tasks : Nat → Option VetkeysTask) (seen : List (PrincipalKey × Nat)) :
    Prop where
  exact : Sightings.Exact v.sightings
  bounded : v.sightings.rows.size ≤ maxSightings
  seen : ∀ (k : PrincipalKey) (f : Nat), v.sightings.rows[k]? = some f → (k, f) ∈ seen
  pending : ∀ t caller admitted, tasks t = some (.derive caller admitted) →
    v.Dispatched (PrincipalKey.new caller)
  established : ∀ k, v.established.contains k = true → v.Dispatched k
  converted : ∀ k, v.established.contains k = true → v.sightings.rows[k]? = none

namespace Aged
variable {D : Deployment} {nowNs : Nat} {caller : PrincipalBytes} {v : FirstView}
  {tasks tasks' : Nat → Option VetkeysTask} {seen : List (PrincipalKey × Nat)}
  {w w' : VetkeysWorld} {o : VetkeysOutcome} {table : Table}

/-- Calls may be forgotten. -/
theorem forget (h : Aged v tasks seen) (hsub : ∀ t k, tasks' t = some k → tasks t = some k) :
    Aged v tasks' seen :=
  {h with pending := fun t caller admitted ht => h.pending t caller admitted (hsub t _ ht)}

theorem dispatch (h : Aged v tasks seen) (d : Dispatch) :
    Aged {v with dispatched := d :: v.dispatched} tasks seen where
  exact := h.exact
  bounded := h.bounded
  seen := h.seen
  pending t caller admitted ht := by
    obtain ⟨e, he, hwho⟩ := h.pending t caller admitted ht
    exact ⟨e, List.mem_cons_of_mem _ he, hwho⟩
  established k hk := by
    obtain ⟨e, he, hwho⟩ := h.established k hk
    exact ⟨e, List.mem_cons_of_mem _ he, hwho⟩
  converted := h.converted

/-- Another call waits. -/
theorem await {s : VetkeysState} (h : Aged s.firstView w.tasks seen) {k : VetkeysTask}
    (hk : ∀ caller admitted, k = .derive caller admitted →
      s.firstView.Dispatched (PrincipalKey.new caller)) :
    Aged (w.suspend s k ()).state.firstView (w.suspend s k ()).tasks seen :=
  {h with
    pending := fun t caller admitted ht => by
      rcases World.of_tasks_suspend ht with ⟨-, rfl⟩ | ⟨-, hold⟩
      · exact hk caller admitted rfl
      · exact h.pending t caller admitted hold}

/-- Another table, whose rows were all answers and of which none is of an established principal. -/
theorem retable (h : Aged v tasks seen) {seen' : List (PrincipalKey × Nat)}
    (hexact : Sightings.Exact table) (hbounded : table.rows.size ≤ maxSightings)
    (hseen : ∀ (k : PrincipalKey) (f : Nat), table.rows[k]? = some f → (k, f) ∈ seen')
    (hconverted : ∀ k, v.established.contains k = true → table.rows[k]? = none) :
    Aged {v with sightings := table} tasks seen' where
  exact := hexact
  bounded := hbounded
  seen := hseen
  pending := h.pending
  established := h.established
  converted := hconverted

/-- A message that ends for its caller. -/
theorem ends (h : Aged v w.tasks seen) (ho : Ends nowNs caller v o) (hl : Lands anyCallees w o w') :
    Aged w'.state.firstView w'.tasks seen := by
  cases ho with
  | refused hview _ =>
    rw [hl.of_reply]
    exact hview ▸ h
  | @dispatched t admitted transportKey id hview =>
    obtain ⟨e, -, rfl⟩ := hl.of_call
    have hdispatched := h.dispatch ⟨PrincipalKey.new caller, id, nowNs⟩
    refine await (hview ▸ hdispatched) fun _ _ hk => ?_
    cases hk
    rw [hview]
    exact ⟨_, List.mem_cons_self, rfl⟩

end Aged

/-! ### Steps -/

/-- No answer of the ledger at or above the floor is taken up for a principal established since
it was asked for, or by a full table that holds a sighting too late for its expiry to be told. The
clock tells a number of 64 bits. -/
def Unconverted (w : VetkeysWorld) : Event Input Reply → Prop
  | .reply t r => w.now ≤ u64Max ∧ ∀ caller transportKey admitted amount,
      w.tasks t = some (.eligibility caller transportKey admitted) → r.body = .balance amount →
      eligibilityMinBalanceE8s ≤ amount →
        ¬w.state.established.contains (PrincipalKey.new caller) = true ∧
        (maxSightings ≤ w.state.eligibilitySightings.rows.size →
          ∀ (k : PrincipalKey) (f : Nat), w.state.eligibilitySightings.rows[k]? = some f →
            f + sightingRetentionNs ≤ u64Max)
  | _ => True

/-- The balances at or above the floor, of whom and when. -/
def observed (w : VetkeysWorld) : Event Input Reply → List (PrincipalKey × Nat)
  | .reply t r =>
    match w.tasks t, r.body with
    | some (.eligibility caller _ _), .balance amount =>
      if eligibilityMinBalanceE8s ≤ amount then [(PrincipalKey.new caller, w.now)] else []
    | _, _ => []
  | _ => []

section Steps
variable {D : Deployment} {w w' : VetkeysWorld} {e : Event Input Reply}
  {seen : List (PrincipalKey × Nat)} {caller : PrincipalBytes} {transportKey : Bytes}
  {admitted : Admitted} {t amount : Nat} {r : Reply}

theorem observed_eq (hk : w.tasks t = some (.eligibility caller transportKey admitted))
    (hbody : r.body = .balance amount) (hfloor : eligibilityMinBalanceE8s ≤ amount) :
    observed w (.reply t r) = [(PrincipalKey.new caller, w.now)] := by
  simp only [observed, hk, hbody, if_pos hfloor]

theorem Aged.more {v : FirstView} {tasks : Nat → Option VetkeysTask} (h : Aged v tasks seen)
    (more : List (PrincipalKey × Nat)) : Aged v tasks (more ++ seen) :=
  {h with seen := fun k f hk => List.mem_append_right _ (h.seen k f hk)}

/-- The rows a decision leaves: the caller's own, of now, and others there were. -/
theorem Sightings.Decided.get {nowNs : Nat} {who : PrincipalKey} {b b' : Table}
    {outcome : SightingOutcome} (h : Decided nowNs who b outcome b') {k : PrincipalKey} {f : Nat}
    (hk : b'.rows[k]? = some f) : b.rows[k]? = some f ∨ k = who ∧ f = nowNs := by
  have inserted : ∀ {rows : StableMap PrincipalKey Nat}, (rows.insert who nowNs)[k]? = some f →
      rows[k]? = some f ∨ k = who ∧ f = nowNs := by
    intro rows hk
    rw [StableMap.get_insert_at] at hk
    split at hk
    · next heq => exact .inr ⟨heq, (Option.some.inj hk).symm⟩
    · exact .inl hk
  cases h with
  | kept _ _ => exact .inl hk
  | renewed _ _ h => exact inserted (h ▸ hk)
  | inserted _ _ h => exact inserted (h ▸ hk)
  | @evicted _ victim oldest _ _ _ _ h =>
    rcases inserted (h ▸ hk) with hold | hown
    · rw [StableMap.get_erase] at hold
      split at hold
      · exact nomatch hold
      · exact .inl hold
    · exact .inr hown

/-- The table after a decision. -/
theorem Aged.decided (h : Aged w.state.firstView w.tasks seen) (hok : Unconverted w (.reply t r))
    (hk : w.tasks t = some (.eligibility caller transportKey admitted))
    (hbody : r.body = .balance amount) (hfloor : eligibilityMinBalanceE8s ≤ amount)
    {outcome : SightingOutcome} {table : Table}
    (hdecide : Sightings.decide w.now (PrincipalKey.new caller) w.state.eligibilitySightings =
      some (outcome, table)) :
    Aged {w.state.firstView with sightings := table} w.tasks (observed w (.reply t r) ++ seen) := by
  obtain ⟨outcome', b₁, gone, table', hdecide', hexact, hbounded, hreclaimed, hdecided⟩ :=
    decide_exact h.exact hok.1 h.bounded (PrincipalKey.new caller)
  cases hdecide.symm.trans hdecide'
  obtain ⟨hfresh, -⟩ := hok.2 caller transportKey admitted amount hk hbody hfloor
  rw [observed_eq hk hbody hfloor]
  refine h.retable hexact hbounded (fun k f hrow => ?_) fun k hestablished => ?_
  · rcases hdecided.get hrow with hold | ⟨rfl, rfl⟩
    · exact List.mem_cons_of_mem _ (h.seen k f (hreclaimed.get hold))
    · exact List.mem_cons_self
  · refine Option.eq_none_iff_forall_ne_some.2 fun f hrow => ?_
    rcases hdecided.get hrow with hold | ⟨rfl, rfl⟩
    · exact nomatch (h.converted k hestablished).symm.trans (hreclaimed.get hold)
    · exact hfresh hestablished

theorem reply_aged (h : Aged w.state.firstView w.tasks seen) (hok : Unconverted w (.reply t r))
    {k : VetkeysTask} (hk : w.tasks t = some k)
    (hl : Lands anyCallees (w.finish t) (resume D w.now k r w.state) w') :
    Aged w'.state.firstView w'.tasks (observed w (.reply t r) ++ seen) := by
  have hfinish : ∀ u k, (w.finish t).tasks u = some k → w.tasks u = some k :=
    fun u k hu => (World.of_tasks_finish hu).2
  have hmore := (h.more (observed w (.reply t r))).forget hfinish
  cases k with
  | eligibility caller transportKey admitted =>
    have hweighed : Weighed w.now caller r w.state
      (eligibilityAnswered D w.now caller transportKey admitted r w.state) := eligibilityAnswered_weighed
    simp only [resume] at hl
    generalize eligibilityAnswered D w.now caller transportKey admitted r w.state = o at hl hweighed
    cases hweighed with
    | undecided hview _ =>
      rw [hl.of_reply]
      exact hview ▸ hmore
    | trapped => exact absurd hl Lands.not_trap
    | passed hbody hfloor hdecide hends =>
      exact ((h.decided hok hk hbody hfloor hdecide).forget hfinish).ends hends hl
    | aged hbody hfloor hdecide _ hview =>
      rw [hl.of_reply]
      exact hview ▸ (h.decided hok hk hbody hfloor hdecide).forget hfinish
  | derive caller admitted =>
    have hfinished : Finished w.now caller w.state (deriveAnswered w.now caller admitted r w.state) :=
      deriveAnswered_finished
    simp only [resume] at hl
    generalize deriveAnswered w.now caller admitted r w.state = o at hl hfinished
    cases hfinished with
    | refused => exact absurd hl Lands.not_trap
    | trapped => exact absurd hl Lands.not_trap
    | lapsed hview =>
      rw [hl.of_reply]
      exact hview ▸ hmore
    | @converted s table _ hclear hview =>
      obtain ⟨table', hclear', hexact, hrows⟩ := clearOnSuccess_exact h.exact (PrincipalKey.new caller)
      cases hclear.symm.trans hclear'
      rw [hl.of_reply]
      show Aged s.firstView (w.finish t).tasks _
      rw [hview]
      have hget : ∀ (k : PrincipalKey) (f : Nat), table.rows[k]? = some f →
          k ≠ PrincipalKey.new caller ∧ w.state.eligibilitySightings.rows[k]? = some f := by
        intro k f hrow
        rw [hrows, StableMap.get_erase_at] at hrow
        split at hrow
        · cases hrow
        · next hne => exact ⟨hne, hrow⟩
      have hsize : table.rows.size ≤ maxSightings := by
        rw [hrows]
        exact Nat.le_trans Std.ExtTreeMap.size_erase_le h.bounded
      have hcontains : ∀ k : PrincipalKey,
          (w.state.established.insert (PrincipalKey.new caller) w.now).contains k = true →
            k = PrincipalKey.new caller ∨ w.state.established.contains k = true := by
        intro k hin
        rw [Std.ExtTreeMap.contains_insert, Bool.or_eq_true, beq_iff_eq,
          Std.LawfulEqOrd.compare_eq_iff_eq] at hin
        exact hin.imp Eq.symm id
      exact
        { exact := hexact
          bounded := hsize
          seen := fun k f hrow => List.mem_append_right _ (h.seen k f (hget k f hrow).2)
          pending := hmore.pending
          established := fun k hin => by
            rcases hcontains k hin with rfl | hold
            · exact h.pending t caller admitted hk
            · exact h.established k hold
          converted := fun k hin => by
            refine Option.eq_none_iff_forall_ne_some.2 fun f hrow => ?_
            obtain ⟨hne, hold⟩ := hget k f hrow
            rcases hcontains k hin with heq | hbefore
            · exact hne heq
            · cases (h.converted k hbefore).symm.trans hold }

/-- Only a derive awaits. -/
theorem start_tasks {i : Input} (hl : Lands anyCallees w (start D w.now i w.state) w')
    (hi : ∀ caller transportKey live, i ≠ .getEncryptedVetkey caller transportKey live) :
    w'.tasks = w.tasks := by
  have answered : ∀ {α : Type} {x : Endpoint α} {f : Except VetkeysError α → Answer},
      Lands anyCallees w (answered x f w.state) w' → w'.tasks = w.tasks := by
    intro α x f hl
    unfold Vetkeys.answered at hl
    cases hr : x.exec w.state with
    | error e =>
      rw [hr] at hl
      exact absurd hl Lands.not_trap
    | ok p =>
      rw [hr] at hl
      rw [hl.of_reply]
  cases i with
  | getEncryptedVetkey caller transportKey live => exact absurd rfl (hi caller transportKey live)
  | registerDevice | revokeDevice | replaceEnvelope | setDeviceApprovalPolicy
  | requestDeviceApprovalPolicyClear | authorizeReBootstrap => exact answered hl

theorem firstView_of_deriveView {s s' : VetkeysState} (h : s'.deriveView = s.deriveView) :
    s'.firstView = s.firstView :=
  congrArg (fun v : DeriveView =>
    (⟨v.established, v.eligibilitySightings, v.history.dispatched⟩ : FirstView)) h

theorem call_aged {i : Input} (h : Aged w.state.firstView w.tasks seen)
    (hl : Lands anyCallees w (start D w.now i w.state) w') :
    Aged w'.state.firstView w'.tasks seen := by
  by_cases hi : ∃ caller transportKey live, i = .getEncryptedVetkey caller transportKey live
  · obtain ⟨caller, transportKey, live, rfl⟩ := hi
    have hbegan : Began w.now caller w.state.firstView
      (getEncryptedVetkey D w.now caller transportKey live w.state) := getEncryptedVetkey_began
    simp only [start] at hl
    generalize getEncryptedVetkey D w.now caller transportKey live w.state = o at hl hbegan
    cases hbegan with
    | ended hends _ => exact h.ends hends hl
    | asked hview =>
      obtain ⟨_, -, rfl⟩ := hl.of_call
      exact Aged.await (hview ▸ h) fun _ _ hk => nomatch hk
  · have hdevice : ∀ caller transportKey live, i ≠ .getEncryptedVetkey caller transportKey live :=
      fun caller transportKey live heq => hi ⟨caller, transportKey, live, heq⟩
    rw [start_tasks hl hdevice, firstView_of_deriveView (start_deriveView hl.state hdevice)]
    exact h

theorem step_aged (h : Aged w.state.firstView w.tasks seen) (hok : Unconverted w e)
    (hstep : (canister D).Step anyCallees w e w') :
    Aged w'.state.firstView w'.tasks (observed w e ++ seen) := by
  cases hstep with
  | call hl => exact call_aged h hl
  | reply hk _ hl => exact reply_aged h hok hk hl
  | replyTrap => exact (h.more _).forget fun u k hu => (World.of_tasks_finish hu).2
  | upgrade hupgrade =>
    cases hupgrade
    exact (h.more _).forget fun u k hu => nomatch hu
  | others hothers =>
    obtain ⟨token, htoken⟩ := hothers
    rw [setTokenCanister_eq htoken]
    exact h
  | callTrap | wait | elsewhere => exact h

theorem aged_installed (h : Installed w) : Aged w.state.firstView w.tasks [] := by
  have htasks := h.2
  obtain ⟨token, hstate⟩ := h.state_eq
  rw [hstate, htasks]
  exact
    { exact := Timed.exact_empty
      bounded := Nat.zero_le _
      seen := fun k f hk => nomatch hk
      pending := fun t caller admitted ht => nomatch ht
      established := fun k hk => nomatch hk
      converted := fun k _ => rfl }

theorem run_aged (run : (system D).Noted Unconverted observed w seen) :
    Aged w.state.firstView w.tasks seen :=
  run.invariant (I := fun w seen => Aged w.state.firstView w.tasks seen)
    (fun _ h => aged_installed h) fun _ _ _ _ h hok hstep => step_aged h hok hstep

end Steps

/-! ### What every step keeps to -/

def VetkeysTask.caller : VetkeysTask → PrincipalBytes
  | .eligibility caller _ _ | .derive caller _ => caller

/-- The step answers a derive of the caller. -/
def Answers (D : Deployment) (w : VetkeysWorld) (caller : PrincipalBytes) (a : Answer) :
    Event Input Reply → Prop
  | .call i => (∃ transportKey live, i = .getEncryptedVetkey caller transportKey live) ∧
      ∃ s, start D w.now i w.state = .reply s a
  | .reply t r => ∃ k s, w.tasks t = some k ∧ k.caller = caller ∧
      resume D w.now k r w.state = .reply s a
  | _ => False

/-- What a step does to the sightings: nothing, or it takes out that of a principal it establishes,
or it reclaims a few that have expired and then decides of a caller. A row given up to a new one
is the oldest. -/
inductive TableStep (w w' : VetkeysWorld) : Prop
  | same (h : w'.state.eligibilitySightings = w.state.eligibilitySightings)
  | cleared (who : PrincipalKey)
      (h : w'.state.eligibilitySightings.rows = w.state.eligibilitySightings.rows.erase who)
      (hestablished : w'.state.established = w.state.established.insert who w.now)
  | decided {who : PrincipalKey} {outcome : SightingOutcome} {b : Table} {gone : List PrincipalKey}
      (hreclaimed : Reclaimed w.now w.state.eligibilitySightings b gone)
      (hdecided : Decided w.now who b outcome w'.state.eligibilitySightings)
      (holdest : ∀ (k k' : PrincipalKey) (f f' : Nat), b.rows[k]? = some f →
        w'.state.eligibilitySightings.rows[k]? = none → b.rows[k']? = some f' → f ≤ f')

/-- A step a run may take. -/
structure SightingStep (D : Deployment) (w w' : VetkeysWorld) (seen : List (PrincipalKey × Nat))
    (e : Event Input Reply) : Prop where
  /-- No principal that is established is refused for its balance's age. -/
  refused : ∀ caller n, Answers D w caller (.key (.error (.eligibilityAgeNotMet n))) e →
    ¬w.state.established.contains (PrincipalKey.new caller) = true
  /-- A first derive is dispatched on two balances at or above the floor, one seen now and one
  before, some time apart. -/
  first : ∀ who id atNs, w'.state.history.dispatched = ⟨who, id, atNs⟩ :: w.state.history.dispatched →
    (∀ d ∈ w.state.history.dispatched, d.who ≠ who) ∨ ¬w.state.established.contains who = true →
    ∃ f, (who, f) ∈ seen ∧ (who, w.now) ∈ observed w e ∧ f + eligibilityMinAgeNs ≤ w.now ∧
      w.now ≤ f + sightingRetentionNs
  /-- The time of a sighting changes only when it has expired. -/
  renewed : ∀ (who : PrincipalKey) (f f' : Nat), w.state.eligibilitySightings.rows[who]? = some f →
    w'.state.eligibilitySightings.rows[who]? = some f' → f' ≠ f → ExpiredAt w.now f
  table : TableStep w w'

section Steps
variable {D : Deployment} {w w' : VetkeysWorld} {e : Event Input Reply}
  {seen : List (PrincipalKey × Nat)}

theorem judge_admitted {nowNs f : Nat} (h : judge nowNs f = .admitted) :
    f + eligibilityMinAgeNs ≤ nowNs := by
  unfold judge evaluateAge at h
  by_cases hpast : f ≤ nowNs
  · rw [if_pos hpast] at h
    by_cases hold : eligibilityMinAgeNs ≤ nowNs - f
    · omega
    · rw [if_neg hold] at h
      exact nomatch h
  · rw [if_neg hpast] at h
    exact nomatch h

/-- A caller is let through on a sighting that is old enough and has not expired. -/
theorem Sightings.Decided.passed {nowNs : Nat} {who : PrincipalKey} {b b' : Table}
    (h : Decided nowNs who b .admitted b') (hnow : nowNs ≤ u64Max) :
    ∃ f : Nat, b.rows[who]? = some f ∧ f + eligibilityMinAgeNs ≤ nowNs ∧
      nowNs ≤ f + sightingRetentionNs := by
  generalize houtcome : SightingOutcome.admitted = outcome at h
  cases h with
  | @kept f hrow hlive =>
    refine ⟨f, hrow, judge_admitted houtcome.symm, ?_⟩
    unfold ExpiredAt at hlive
    omega
  | renewed => exact nomatch houtcome
  | inserted => exact nomatch houtcome
  | evicted => exact nomatch houtcome

/-- A row that a decision takes out of a full table is the oldest. -/
theorem Sightings.Decided.oldest {nowNs : Nat} {who k k' : PrincipalKey} {b b' : Table}
    {outcome : SightingOutcome} {f f' : Nat} (h : Decided nowNs who b outcome b')
    (htold : maxSightings ≤ b.rows.size → ∀ (k : PrincipalKey) (f : Nat), b.rows[k]? = some f →
      f + sightingRetentionNs ≤ u64Max)
    (hk : b.rows[k]? = some f) (hgone : b'.rows[k]? = none) (hk' : b.rows[k']? = some f') : f ≤ f' := by
  have kept : ∀ {rows : StableMap PrincipalKey Nat}, (rows.insert who nowNs)[k]? = none →
      rows[k]? = none := by
    intro rows hnone
    rw [StableMap.get_insert_at] at hnone
    split at hnone
    · exact nomatch hnone
    · exact hnone
  cases h with
  | kept _ _ => exact nomatch hk.symm.trans hgone
  | renewed _ _ h => exact nomatch hk.symm.trans (kept (h ▸ hgone))
  | inserted _ _ h => exact nomatch hk.symm.trans (kept (h ▸ hgone))
  | @evicted _ victim oldest _ hfull hvictim holdest h =>
    have hnone := kept (h ▸ hgone)
    rw [StableMap.get_erase] at hnone
    split at hnone
    · next heq =>
      subst heq
      cases hvictim.symm.trans hk
      exact oldest_le (htold hfull _ _ hvictim) (htold hfull _ _ hk') (holdest k' f' hk')
    · exact nomatch hk.symm.trans hnone

/-- What a step does to what first derives are decided by. -/
inductive FirstStep (w w' : VetkeysWorld) : Event Input Reply → Prop
  | rest {e : Event Input Reply} (h : w'.state.firstView = w.state.firstView) : FirstStep w w' e
  | again {e : Event Input Reply} {caller : PrincipalBytes} {id : Nat}
      (hestablished : w.state.established.contains (PrincipalKey.new caller) = true)
      (h : w'.state.firstView = {w.state.firstView with
        dispatched := ⟨PrincipalKey.new caller, id, w.now⟩ :: w.state.history.dispatched}) :
      FirstStep w w' e
  | aged {t amount : Nat} {r : Reply} {caller : PrincipalBytes} {transportKey : Bytes}
      {admitted : Admitted} {outcome : SightingOutcome} {table : Table}
      (hk : w.tasks t = some (.eligibility caller transportKey admitted))
      (hbody : r.body = .balance amount) (hfloor : eligibilityMinBalanceE8s ≤ amount)
      (hdecide : Sightings.decide w.now (PrincipalKey.new caller) w.state.eligibilitySightings =
        some (outcome, table))
      (h : w'.state.firstView = {w.state.firstView with sightings := table}) :
      FirstStep w w' (.reply t r)
  | passed {t amount id : Nat} {r : Reply} {caller : PrincipalBytes} {transportKey : Bytes}
      {admitted : Admitted} {table : Table}
      (hk : w.tasks t = some (.eligibility caller transportKey admitted))
      (hbody : r.body = .balance amount) (hfloor : eligibilityMinBalanceE8s ≤ amount)
      (hdecide : Sightings.decide w.now (PrincipalKey.new caller) w.state.eligibilitySightings =
        some (.admitted, table))
      (h : w'.state.firstView = {w.state.firstView with
        sightings := table
        dispatched := ⟨PrincipalKey.new caller, id, w.now⟩ :: w.state.history.dispatched}) :
      FirstStep w w' (.reply t r)
  | converted {e : Event Input Reply} {caller : PrincipalBytes} {table : Table}
      (hclear : clearOnSuccess (PrincipalKey.new caller) w.state.eligibilitySightings = some table)
      (h : w'.state.firstView = {w.state.firstView with
        established := w.state.established.insert (PrincipalKey.new caller) w.now
        sightings := table}) : FirstStep w w' e

theorem call_first {i : Input} (hl : Lands anyCallees w (start D w.now i w.state) w') :
    FirstStep w w' (.call i) := by
  by_cases hi : ∃ caller transportKey live, i = .getEncryptedVetkey caller transportKey live
  · obtain ⟨caller, transportKey, live, rfl⟩ := hi
    have hbegan : Began w.now caller w.state.firstView
      (getEncryptedVetkey D w.now caller transportKey live w.state) := getEncryptedVetkey_began
    simp only [start] at hl
    generalize getEncryptedVetkey D w.now caller transportKey live w.state = o at hl hbegan
    cases hbegan with
    | asked hview =>
      obtain ⟨_, -, rfl⟩ := hl.of_call
      exact .rest hview
    | ended hends hestablished =>
      cases hends with
      | refused hview _ =>
        rw [hl.of_reply]
        exact .rest hview
      | dispatched hview =>
        obtain ⟨_, -, rfl⟩ := hl.of_call
        exact .again (hestablished _ _ _ rfl) hview
  · exact .rest (firstView_of_deriveView (start_deriveView hl.state
      fun caller transportKey live heq => hi ⟨caller, transportKey, live, heq⟩))

theorem reply_first {t : Nat} {r : Reply} {k : VetkeysTask} (hk : w.tasks t = some k)
    (hl : Lands anyCallees (w.finish t) (resume D w.now k r w.state) w') :
    FirstStep w w' (.reply t r) := by
  cases k with
  | eligibility caller transportKey admitted =>
    have hweighed : Weighed w.now caller r w.state
      (eligibilityAnswered D w.now caller transportKey admitted r w.state) := eligibilityAnswered_weighed
    simp only [resume] at hl
    generalize eligibilityAnswered D w.now caller transportKey admitted r w.state = o at hl hweighed
    cases hweighed with
    | undecided hview _ =>
      rw [hl.of_reply]
      exact .rest hview
    | trapped => exact absurd hl Lands.not_trap
    | aged hbody hfloor hdecide _ hview =>
      rw [hl.of_reply]
      exact .aged hk hbody hfloor hdecide hview
    | passed hbody hfloor hdecide hends =>
      cases hends with
      | refused hview _ =>
        rw [hl.of_reply]
        exact .aged hk hbody hfloor hdecide hview
      | dispatched hview =>
        obtain ⟨_, -, rfl⟩ := hl.of_call
        exact .passed hk hbody hfloor hdecide hview
  | derive caller admitted =>
    have hfinished : Finished w.now caller w.state (deriveAnswered w.now caller admitted r w.state) :=
      deriveAnswered_finished
    simp only [resume] at hl
    generalize deriveAnswered w.now caller admitted r w.state = o at hl hfinished
    cases hfinished with
    | refused | trapped => exact absurd hl Lands.not_trap
    | lapsed hview =>
      rw [hl.of_reply]
      exact .rest hview
    | converted hclear hview =>
      rw [hl.of_reply]
      exact .converted hclear hview

theorem step_first (hstep : (canister D).Step anyCallees w e w') : FirstStep w w' e := by
  cases hstep with
  | call hl => exact call_first hl
  | reply hk _ hl => exact reply_first hk hl
  | upgrade h =>
    cases h
    exact .rest rfl
  | others h =>
    obtain ⟨token, htoken⟩ := h
    rw [setTokenCanister_eq htoken]
    exact .rest rfl
  | callTrap | replyTrap | wait | elsewhere => exact .rest rfl

theorem decided_table (h : Aged w.state.firstView w.tasks seen) {t amount : Nat} {r : Reply}
    {caller : PrincipalBytes} {transportKey : Bytes} {admitted : Admitted}
    {outcome : SightingOutcome} {table : Table} (hok : Unconverted w (.reply t r))
    (hk : w.tasks t = some (.eligibility caller transportKey admitted))
    (hbody : r.body = .balance amount) (hfloor : eligibilityMinBalanceE8s ≤ amount)
    (hdecide : Sightings.decide w.now (PrincipalKey.new caller) w.state.eligibilitySightings =
      some (outcome, table)) (htable : w'.state.eligibilitySightings = table) : TableStep w w' := by
  obtain ⟨_, b₁, gone, _, hdecide', _, _, hreclaimed, hdecided⟩ :=
    decide_exact h.exact hok.1 h.bounded (PrincipalKey.new caller)
  cases hdecide.symm.trans hdecide'
  obtain ⟨-, htold⟩ := hok.2 caller transportKey admitted amount hk hbody hfloor
  refine .decided hreclaimed (htable ▸ hdecided) fun k k' f f' hrow hgone hrow' => ?_
  refine hdecided.oldest (fun hfull k f hrow => ?_) hrow (htable ▸ hgone) hrow'
  exact htold (Nat.le_trans hfull hreclaimed.size_le) k f (hreclaimed.get hrow)

theorem FirstStep.table (hstep : FirstStep w w' e) (h : Aged w.state.firstView w.tasks seen)
    (hok : Unconverted w e) : TableStep w w' := by
  cases hstep with
  | rest hview => exact .same (congrArg FirstView.sightings hview)
  | again _ hview => exact .same (congrArg FirstView.sightings hview)
  | aged hk hbody hfloor hdecide hview =>
    exact decided_table h hok hk hbody hfloor hdecide (congrArg FirstView.sightings hview)
  | passed hk hbody hfloor hdecide hview =>
    exact decided_table h hok hk hbody hfloor hdecide (congrArg FirstView.sightings hview)
  | @converted _ caller table hclear hview =>
    obtain ⟨_, hclear', -, hrows⟩ := clearOnSuccess_exact h.exact (PrincipalKey.new caller)
    cases hclear.symm.trans hclear'
    have htable : w'.state.eligibilitySightings = table := congrArg FirstView.sightings hview
    exact .cleared (PrincipalKey.new caller) (htable ▸ hrows) (congrArg FirstView.established hview)

theorem FirstStep.first (hstep : FirstStep w w' e) (h : Aged w.state.firstView w.tasks seen)
    (hok : Unconverted w e) {who : PrincipalKey} {id atNs : Nat}
    (hdispatched : w'.state.history.dispatched = ⟨who, id, atNs⟩ :: w.state.history.dispatched)
    (hwho : (∀ d ∈ w.state.history.dispatched, d.who ≠ who) ∨
      ¬w.state.established.contains who = true) :
    ∃ f, (who, f) ∈ seen ∧ (who, w.now) ∈ observed w e ∧ f + eligibilityMinAgeNs ≤ w.now ∧
      w.now ≤ f + sightingRetentionNs := by
  have hnew : w'.state.history.dispatched ≠ w.state.history.dispatched := by
    rw [hdispatched]
    exact List.cons_ne_self _ _
  cases hstep with
  | rest hview => exact absurd (congrArg FirstView.dispatched hview) hnew
  | aged _ _ _ _ hview => exact absurd (congrArg FirstView.dispatched hview) hnew
  | converted _ hview => exact absurd (congrArg FirstView.dispatched hview) hnew
  | again hestablished hview =>
    have heq := hdispatched.symm.trans (congrArg FirstView.dispatched hview)
    obtain rfl := congrArg Dispatch.who (List.cons.inj heq).1
    obtain ⟨d, hd, hdwho⟩ := h.established _ hestablished
    rcases hwho with hnone | hfresh
    · exact absurd hdwho (hnone d hd)
    · exact absurd hestablished hfresh
  | @passed t amount _ r caller _ _ table hk hbody hfloor hdecide hview =>
    have heq := hdispatched.symm.trans (congrArg FirstView.dispatched hview)
    obtain rfl := congrArg Dispatch.who (List.cons.inj heq).1
    obtain ⟨_, _, _, _, hdecide', _, _, hreclaimed, hdecided⟩ :=
      decide_exact h.exact hok.1 h.bounded (PrincipalKey.new caller)
    cases hdecide.symm.trans hdecide'
    obtain ⟨f, hrow, hold, hlive⟩ := hdecided.passed hok.1
    refine ⟨f, h.seen _ _ (hreclaimed.get hrow), ?_, hold, hlive⟩
    rw [observed_eq hk hbody hfloor]
    exact List.mem_cons_self

theorem TableStep.renewed (h : TableStep w w') {who : PrincipalKey} {f f' : Nat}
    (hrow : w.state.eligibilitySightings.rows[who]? = some f)
    (hrow' : w'.state.eligibilitySightings.rows[who]? = some f') (hne : f' ≠ f) :
    ExpiredAt w.now f := by
  have same : w.state.eligibilitySightings.rows[who]? = some f' → ExpiredAt w.now f := fun heq =>
    absurd (Option.some.inj (heq.symm.trans hrow)) hne
  cases h with
  | same h => exact same (h ▸ hrow')
  | cleared k h _ =>
    rw [h, StableMap.get_erase] at hrow'
    split at hrow'
    · exact nomatch hrow'
    · exact same hrow'
  | @decided k outcome b gone hreclaimed hdecided _ =>
    by_cases hgone : who ∈ gone
    · obtain ⟨f₁, hf₁, hexpired⟩ := hreclaimed.expired who hgone
      exact Option.some.inj (hf₁.symm.trans hrow) ▸ hexpired
    have hkept := (hreclaimed.kept who hgone).trans hrow
    rcases hdecided.get hrow' with hold | ⟨rfl, -⟩
    · exact same (hreclaimed.get hold)
    · cases hdecided with
      | kept _ _ => exact same (hreclaimed.get hrow')
      | renewed hrow₁ hexpired _ => exact Option.some.inj (hrow₁.symm.trans hkept) ▸ hexpired
      | inserted hnone _ _ => exact nomatch hnone.symm.trans hkept
      | evicted hnone _ _ _ _ => exact nomatch hnone.symm.trans hkept

/-- Whoever is refused for its balance's age has just had the ledger's answer. -/
theorem Answers.sighted {caller : PrincipalBytes} {n : Nat}
    (h : Answers D w caller (.key (.error (.eligibilityAgeNotMet n))) e) :
    ∃ t r transportKey admitted amount, e = .reply t r ∧
      w.tasks t = some (.eligibility caller transportKey admitted) ∧ r.body = .balance amount ∧
      eligibilityMinBalanceE8s ≤ amount := by
  cases e with
  | call i =>
    obtain ⟨⟨transportKey, live, rfl⟩, s, hs⟩ := h
    have hbegan : Began w.now caller w.state.firstView
      (getEncryptedVetkey D w.now caller transportKey live w.state) := getEncryptedVetkey_began
    simp only [start] at hs
    rw [hs] at hbegan
    cases hbegan with
    | ended hends _ =>
      cases hends with
      | refused _ he => exact absurd rfl (he n)
  | reply t r =>
    obtain ⟨k, s, hk, rfl, hs⟩ := h
    cases k with
    | eligibility caller transportKey admitted =>
      have hweighed : Weighed w.now caller r w.state
        (eligibilityAnswered D w.now caller transportKey admitted r w.state) :=
        eligibilityAnswered_weighed
      simp only [resume] at hs
      rw [hs] at hweighed
      cases hweighed with
      | undecided _ he => exact absurd rfl (he n)
      | passed hbody hfloor _ _ => exact ⟨t, r, transportKey, admitted, _, rfl, hk, hbody, hfloor⟩
      | aged hbody hfloor _ _ _ => exact ⟨t, r, transportKey, admitted, _, rfl, hk, hbody, hfloor⟩
    | derive caller admitted =>
      have hfinished : Finished w.now caller w.state
        (deriveAnswered w.now caller admitted r w.state) := deriveAnswered_finished
      simp only [resume] at hs
      rw [hs] at hfinished
      cases hfinished
  | upgrade | wait | elsewhere | others => exact h.elim

/-- Every step that meets the condition keeps to this. -/
theorem Aged.step (h : Aged w.state.firstView w.tasks seen) (hok : Unconverted w e)
    (hstep : (canister D).Step anyCallees w e w') : SightingStep D w w' seen e where
  refused caller n ha := by
    obtain ⟨t, r, transportKey, admitted, amount, rfl, hk, hbody, hfloor⟩ := ha.sighted
    exact (hok.2 caller transportKey admitted amount hk hbody hfloor).1
  first who id atNs hdispatched hwho := (step_first hstep).first h hok hdispatched hwho
  renewed who f f' hrow hrow' hne := ((step_first hstep).table h hok).renewed hrow hrow' hne
  table := (step_first hstep).table h hok

end Steps

/-! ### Runs -/

/-- What is kept of the sightings, in a world that has been reached. -/
structure SightingsKept (w : VetkeysWorld) : Prop where
  /-- The rows and the index correspond. -/
  exact : Sightings.Exact w.state.eligibilitySightings
  bounded : w.state.eligibilitySightings.rows.size ≤ maxSightings
  /-- Nothing done to the table traps. -/
  decides : ∀ nowNs who, nowNs ≤ u64Max →
    Sightings.decide nowNs who w.state.eligibilitySightings ≠ none
  clears : ∀ who, clearOnSuccess who w.state.eligibilitySightings ≠ none
  /-- No principal that is established has a sighting. -/
  converted : ∀ who : PrincipalKey, w.state.established.contains who = true →
    w.state.eligibilitySightings.rows[who]? = none

section Runs
variable {D : Deployment} {w w' : VetkeysWorld} {seen : List (PrincipalKey × Nat)}

theorem Aged.kept {tasks : Nat → Option VetkeysTask} (h : Aged w.state.firstView tasks seen) :
    SightingsKept w where
  exact := h.exact
  bounded := h.bounded
  decides nowNs who hnow := by
    obtain ⟨_, _, _, _, hdecide, -⟩ := decide_exact h.exact hnow h.bounded who
    exact Option.ne_none_iff_exists'.2 ⟨_, hdecide⟩
  clears who := by
    obtain ⟨_, hclear, -⟩ := clearOnSuccess_exact h.exact who
    exact Option.ne_none_iff_exists'.2 ⟨_, hclear⟩
  converted := h.converted

/-- An answer taken up for a principal that has been established is a new sighting, and a refusal
for the balance's age. -/
theorem Aged.resighted (h : Aged w.state.firstView w.tasks seen) {t amount : Nat} {r : Reply}
    {caller : PrincipalBytes} {transportKey : Bytes} {admitted : Admitted} (hnow : w.now ≤ u64Max)
    (hk : w.tasks t = some (.eligibility caller transportKey admitted))
    (hbody : r.body = .balance amount) (hfloor : eligibilityMinBalanceE8s ≤ amount)
    (hestablished : w.state.established.contains (PrincipalKey.new caller) = true)
    (hstep : (canister D).Step anyCallees w (.reply t r) w') :
    w'.state.eligibilitySightings.rows[PrincipalKey.new caller]? = some w.now ∧
      ∃ n, Answers D w caller (.key (.error (.eligibilityAgeNotMet n))) (.reply t r) := by
  obtain ⟨outcome, b, gone, table, hdecide, -, -, hreclaimed, hdecided⟩ :=
    decide_exact h.exact hnow h.bounded (PrincipalKey.new caller)
  have hnone : b.rows[PrincipalKey.new caller]? = none :=
    Option.eq_none_iff_forall_ne_some.2 fun f hrow => by
      cases (h.converted _ hestablished).symm.trans (hreclaimed.get hrow)
  obtain ⟨rfl, hrow⟩ : outcome = .inserted ∧ table.rows[PrincipalKey.new caller]? = some w.now := by
    cases hdecided with
    | kept hrow _ => cases hnone.symm.trans hrow
    | renewed hrow _ _ => cases hnone.symm.trans hrow
    | inserted _ _ hrows => exact ⟨rfl, by rw [hrows, StableMap.get_insert, if_pos rfl]⟩
    | evicted _ _ _ _ hrows => exact ⟨rfl, by rw [hrows, StableMap.get_insert, if_pos rfl]⟩
  have hdecided' : Sightings.decide w.now (PrincipalKey.new caller) w.state.eligibilitySightings =
    some (.inserted, table) := hdecide
  have hanswer : (canister D).resume w.now (.eligibility caller transportKey admitted) r w.state =
      refuseReleasing (PrincipalKey.new caller) admitted (.eligibilityAgeNotMet eligibilityMinAgeNs)
        ({w.state with eligibilitySightings := table}.countAgeRefusal true) := by
    simp only [canister, resume, eligibilityAnswered, hbody, if_neg (Nat.not_lt.2 hfloor), eligibilityDecided,
      hdecided']
  refine ⟨?_, eligibilityMinAgeNs, _, _, hk, rfl, hanswer⟩
  cases hstep with
  | reply hk' _ hl =>
    cases hk.symm.trans hk'
    rw [hanswer] at hl
    rw [hl.of_reply]
    exact hrow
  | replyTrap hk' _ htrap =>
    cases hk.symm.trans hk'
    cases hanswer.symm.trans htrap

/-- Sightings are exact in every run that takes up no answer for a principal established since it
was asked for, and no other run keeps established principals from being sighted. -/
theorem sightings_exact (run : (system D).Noted Unconverted observed w seen) :
    SightingsKept w ∧
      (∀ e w', Unconverted w e → (system D).step w e w' → SightingStep D w w' seen e) ∧
      ∀ t r caller transportKey admitted amount w', w.now ≤ u64Max →
        w.tasks t = some (.eligibility caller transportKey admitted) → r.body = .balance amount →
        eligibilityMinBalanceE8s ≤ amount →
        w.state.established.contains (PrincipalKey.new caller) = true →
        (system D).step w (.reply t r) w' →
        w'.state.eligibilitySightings.rows[PrincipalKey.new caller]? = some w.now ∧
          ∃ n, Answers D w caller (.key (.error (.eligibilityAgeNotMet n))) (.reply t r) := by
  have h := run_aged run
  exact ⟨h.kept, fun e w' hok hstep => h.step hok hstep,
    fun t r caller transportKey admitted amount w' hnow hk hbody hfloor hestablished hstep =>
      h.resighted hnow hk hbody hfloor hestablished hstep⟩

end Runs

/-! ### Played runs -/

section Sample

/-- Whether a step plainly meets the condition: the table has room. -/
def meetsUnconverted (w : VetkeysWorld) : Event Input Reply → Bool
  | .reply t _ => decide (w.now ≤ u64Max) &&
    match w.tasks t with
    | some (.eligibility caller _ _) =>
      !w.state.established.contains (PrincipalKey.new caller) &&
        decide (w.state.eligibilitySightings.rows.size < maxSightings)
    | _ => true
  | _ => true

theorem unconverted_of_meets {w : VetkeysWorld} {e : Event Input Reply}
    (h : meetsUnconverted w e = true) : Unconverted w e := by
  cases e with
  | reply t r =>
    simp only [meetsUnconverted, Bool.and_eq_true, decide_eq_true_eq] at h
    obtain ⟨hnow, hrest⟩ := h
    refine ⟨hnow, fun caller transportKey admitted amount hk _ _ => ?_⟩
    simp only [hk, Bool.and_eq_true, Bool.not_eq_true', decide_eq_true_eq] at hrest
    obtain ⟨hfresh, hroom⟩ := hrest
    exact ⟨fun hin => (nomatch hfresh.symm.trans hin),
      fun hfull => absurd hroom (Nat.not_lt.2 hfull)⟩
  | call | upgrade | wait | elsewhere | others => exact trivial

theorem sightings_exact_sample : ∃ (w : VetkeysWorld) (seen : List (PrincipalKey × Nat)),
    w.state.established.contains (PrincipalKey.new sampleCaller) = true ∧ SightingsKept w ∧
      ∀ e w', Unconverted w e → (system sampleDeployment).step w e w' →
        SightingStep sampleDeployment w w' seen e := by
  have hplayed : ((anyPlayer.run (canister sampleDeployment) meetsUnconverted sampleWorld
      deriveMoves).map fun w => w.state.established.contains (PrincipalKey.new sampleCaller)) =
      some true := by decide +kernel
  obtain ⟨w, hw, hreport⟩ := Option.map_eq_some_iff.1 hplayed
  have run : (system sampleDeployment).RunIf Unconverted w :=
    Player.run_runIf (fun _ _ => unconverted_of_meets) (.start sampleWorld_installed) hw
  obtain ⟨seen, hnoted⟩ := run.noted observed
  exact ⟨w, seen, hreport, (sightings_exact hnoted).1, (sightings_exact hnoted).2.1⟩

/-- Two calls of one principal wait for the ledger; one derives its key, and then the other is
answered. -/
def resightMoves : List (Move Input Reply Unit) :=
  [ask, funded 0, .wait hourNs, ask, ask, funded 1, .reply 3 ⟨.key [5], sampleLive⟩, funded 2]

/-- A principal that is established is sighted. -/
theorem established_resighted : ¬∀ (D : Deployment) (w : VetkeysWorld), (system D).Reachable w →
    ∀ who : PrincipalKey, w.state.established.contains who = true →
      w.state.eligibilitySightings.rows[who]? = none := by
  intro hclaim
  have hplayed : ((anyPlayer.run (canister sampleDeployment) (fun _ _ => true) sampleWorld
      resightMoves).map fun w => (w.state.established.contains (PrincipalKey.new sampleCaller),
        w.state.eligibilitySightings.rows[PrincipalKey.new sampleCaller]?)) =
      some (true, some hourNs) := by decide +kernel
  obtain ⟨w, hw, hreport⟩ := Option.map_eq_some_iff.1 hplayed
  have run : (system sampleDeployment).Reachable w :=
    Player.run_runIf (fun _ _ _ => trivial) (.start sampleWorld_installed) hw
  have hnone := hclaim sampleDeployment w run _ (congrArg Prod.fst hreport)
  exact nomatch hnone.symm.trans (congrArg Prod.snd hreport)

end Sample

end StshProtocol.Vetkeys
