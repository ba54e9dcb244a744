import StshProtocol.ShieldedPool.PrivateSpend.Epoch

/-! A spend reserves its nullifiers under the configuration that admitted it.

From the first await of a spend on, the worlds it lives through lie between the epoch it
captured and the one of the latest; where the latest is still the captured one, all of them
carry the captured configuration, and none has an activation due if the latest has none
(`Since`). -/
namespace StshProtocol.ShieldedPool.PrivateSpend
open Foundation FeePolicy Handler

section World
variable {ε : Type}

def epochAt (w : SpendWorld ε) : Nat := w.state.security.securityEpoch

/-- An activation is due and not applied. -/
def DueAt (w : SpendWorld ε) : Prop := w.state.security.Overdue w.now

instance (w : SpendWorld ε) : Decidable (DueAt w) :=
  inferInstanceAs (Decidable (w.state.security.Overdue w.now))

/-- An activation that is due is not scheduled over while a spend that captured the epoch
waits to reserve. -/
def Careful (w : SpendWorld ε) (e : Event Input Reply) : Prop :=
  Schedules w e → DueAt w → ∀ t k f, w.tasks t = some k → k.frame? = some f →
    f.capturedEpoch ≠ epochAt w

section Turns
variable {w w' : SpendWorld ε} {e : Event Input Reply}

theorem Turns.epoch_le (h : Turns w e w') : epochAt w ≤ epochAt w' := by
  cases h with
  | moves h _ =>
    rcases h.eq_or_bumps with hsame | epoch
    · exact Nat.le_of_eq (congrArg SecurityCells.securityEpoch hsame.symm)
    · exact Nat.le_of_lt (Nat.lt_of_succ_le (Nat.le_of_eq epoch.symm))
  | schedules _ epoch _ => exact Nat.le_of_eq epoch.symm

theorem Turns.configuration (h : Turns w e w') (he : epochAt w' = epochAt w) :
    w'.state.security.configuration = w.state.security.configuration := by
  cases h with
  | moves h _ =>
    rcases h.eq_or_bumps with hsame | epoch
    · rw [hsame]
    · exact absurd (he.symm.trans epoch) (Nat.succ_ne_self _).symm
  | schedules _ _ configuration => exact configuration

/-- What is due stays due under its epoch, unless it is scheduled over. -/
theorem Turns.dueAt (h : Turns w e w') (he : epochAt w' = epochAt w) (hs : ¬Schedules w e)
    (hdue : DueAt w) : DueAt w' := by
  cases h with
  | moves h now =>
    rcases h.eq_or_bumps with hsame | epoch
    · obtain ⟨t, ht, hle⟩ := hdue
      exact ⟨t, hsame ▸ ht, Nat.le_trans hle now⟩
    · exact absurd (he.symm.trans epoch) (Nat.succ_ne_self _).symm
  | schedules h _ _ => exact absurd h hs

end Turns

/-- The worlds since the cells `c` were captured, the latest first. -/
structure Since (c : SecurityCells) (w : SpendWorld ε) (ws : List (SpendWorld ε)) : Prop where
  least : ∀ u ∈ w :: ws, c.securityEpoch ≤ epochAt u
  most : ∀ u ∈ w :: ws, epochAt u ≤ epochAt w
  same : ∀ u ∈ w :: ws, epochAt u = c.securityEpoch →
    u.state.security.configuration = c.configuration
  due : epochAt w = c.securityEpoch → ¬DueAt w → ∀ u ∈ w :: ws, ¬DueAt u

section Since
variable {c : SecurityCells} {w w' : SpendWorld ε} {ws : List (SpendWorld ε)}
  {e : Event Input Reply}

theorem since_single : Since w.state.security w [] where
  least := List.forall_mem_singleton.2 (Nat.le_refl _)
  most := List.forall_mem_singleton.2 (Nat.le_refl _)
  same := List.forall_mem_singleton.2 fun _ => rfl
  due := fun _ h => List.forall_mem_singleton.2 h

theorem Since.step (h : Since c w ws) (ht : Turns w e w')
    (hcareful : Schedules w e → DueAt w → epochAt w ≠ c.securityEpoch) :
    Since c w' (w :: ws) where
  least := List.forall_mem_cons.2
    ⟨Nat.le_trans (h.least w List.mem_cons_self) ht.epoch_le, h.least⟩
  most := List.forall_mem_cons.2
    ⟨Nat.le_refl _, fun u hu => Nat.le_trans (h.most u hu) ht.epoch_le⟩
  same := List.forall_mem_cons.2 ⟨fun he => by
    have hw : epochAt w = c.securityEpoch :=
      Nat.le_antisymm (Nat.le_trans ht.epoch_le (Nat.le_of_eq he)) (h.least w List.mem_cons_self)
    exact (ht.configuration (he.trans hw.symm)).trans (h.same w List.mem_cons_self hw), h.same⟩
  due := fun he hnot => by
    have hw : epochAt w = c.securityEpoch :=
      Nat.le_antisymm (Nat.le_trans ht.epoch_le (Nat.le_of_eq he)) (h.least w List.mem_cons_self)
    have hdue : ¬DueAt w := fun hdue =>
      hnot (ht.dueAt (he.trans hw.symm) (fun hs => hcareful hs hdue hw) hdue)
    exact List.forall_mem_cons.2 ⟨hnot, h.due hw hdue⟩

/-- Where the epoch is still the captured one, so is everything it stands for. -/
theorem Since.steady (h : Since c w ws) (he : epochAt w = c.securityEpoch) (hnot : ¬DueAt w) :
    ∀ u ∈ w :: ws, epochAt u = c.securityEpoch ∧
      u.state.security.configuration = c.configuration ∧ ¬DueAt u := fun u hu =>
  have hu' := Nat.le_antisymm (Nat.le_trans (h.most u hu) (Nat.le_of_eq he)) (h.least u hu)
  ⟨hu', h.same u hu hu', h.due he hnot u hu⟩

end Since

/-! ### The life of a spend -/

/-- The verifier of the record was configured, and it accepted the proof, in this world. -/
def AcceptedIn (S : Service ε Request Reply) (a : AdmittedSpend) (u : SpendWorld ε) : Prop :=
  ∃ t r, u.tasks t = some (.verify a) ∧ S.answer t r u.env ∧ Accepted r

/-- What a suspended spend has lived through. -/
inductive Held (S : Service ε Request Reply) (caller : Principal) (args : PrivateSpendArgs)
    (w : SpendWorld ε) (ws : List (SpendWorld ε)) : Cont → Prop where
  | waits {k : Cont} {f : SpendFrame} {c : SecurityCells} (hf : k.frame? = some f)
      (captured : Captured caller args f c) (since : Since c w ws)
      (verifier : ∀ a, k.admitted? = some a →
        ∃ u ∈ w :: ws, u.state.security.verifierCanister = some a.verifier)
      (accepted : ∀ a, k.rechecks? = some a → ∃ u ∈ w :: ws, AcceptedIn S a u) :
      Held S caller args w ws k
  | reserved {a : AdmittedSpend} : Held S caller args w ws (.insertBatch a)

section Held
variable {S : Service ε Request Reply} {caller : Principal} {args : PrivateSpendArgs} {D : Deployment}
  {w w' : SpendWorld ε} {ws : List (SpendWorld ε)} {k k' : Cont} {e : Event Input Reply}

theorem Held.pass (h : Held S caller args w ws k) {t : Nat} (hk : w.tasks t = some k)
    (hok : Careful w e) (hstep : (canister D).Step S w e w') : Held S caller args w' (w :: ws) k := by
  cases h with
  | waits hf captured since verifier accepted =>
    refine .waits hf captured (since.step (steps_turn hstep) fun hs hdue => ?_) ?_ ?_
    · exact captured.epoch ▸ (hok hs hdue _ _ _ hk hf).symm
    · intro a ha
      obtain ⟨u, hu, hv⟩ := verifier a ha
      exact ⟨u, List.mem_cons_of_mem _ hu, hv⟩
    · intro a ha
      obtain ⟨u, hu, hacc⟩ := accepted a ha
      exact ⟨u, List.mem_cons_of_mem _ hu, hacc⟩
  | reserved => exact .reserved

theorem conclude_call {answer : Except PoolError Unit → Answer} {x : Spending Next}
    {s t : SpendState} {q : Request} (h : conclude D answer x s = .call t k q) :
    x.exec s = .ok (.ok (.awaits k), t) := by
  unfold conclude at h
  split at h <;> cases h
  assumption

/-- A spend that is suspended for the first time. -/
theorem Held.opens {s : SpendState} {q : Request} {env : ε}
    (h : (canister D).start w.now (.privateSpend caller args) w.state = .call s k q) :
    Held S caller args (w.suspend s k env) [] k := by
  cases opens_privateSpend _ _ _ (conclude_call h) with
  | waits hc captured hf ha =>
    refine .waits hf captured (since_single (w := w.suspend s k env)) (fun a hk => ?_) fun a hk => ?_
    · exact ⟨_, List.mem_cons_self, (ha a hk).2⟩
    · obtain ⟨rfl, -⟩ := ha a (Cont.admitted_of_rechecks hk)
      cases hk

theorem Since.resumes {c : SecurityCells} (since : Since c w ws) {t : Nat} {r : Reply}
    {s : SpendState} {q : Request} {env : ε} (h : resume D w.now k r w.state = .call s k' q) :
    Since c ((w.finish t).suspend s k' env) (w :: ws) := by
  have hmoves := mover_continuation k r _ _ _ (conclude_call h)
  refine since.step (e := .reply t r) (.moves hmoves (Nat.le_refl _)) fun hs => ?_
  obtain ⟨_, _, _, _, _, hevent, _⟩ := hs
  cases hevent

/-- Behind the verdict, a spend waits on with what it has, or reserves. -/
theorem Held.settles {t : Nat} {a : AdmittedSpend} {c : SecurityCells} {s : SpendState} {r : Reply}
    {q : Request} {env : ε} (captured : Captured caller args a.frame c) (since : Since c w ws)
    (verifier : ∃ u ∈ w :: ws, u.state.security.verifierCanister = some a.verifier)
    (accepted : ∃ u ∈ w :: ws, AcceptedIn S a u)
    (h : resume D w.now k r w.state = .call s k' q)
    (hsettles : Settles w.now a w.state.security (.ok (.awaits k')) s) :
    Held S caller args ((w.finish t).suspend s k' env) (w :: ws) k' := by
  cases hsettles with
  | waits hk hc =>
    refine .waits (Cont.frame_of_rechecks hk) captured (since.resumes h) (fun a' ha' => ?_)
      fun a' ha' => ?_
    · cases (Cont.admitted_of_rechecks hk).symm.trans ha'
      obtain ⟨u, hu, hv⟩ := verifier
      exact ⟨u, List.mem_cons_of_mem _ hu, hv⟩
    · cases hk.symm.trans ha'
      obtain ⟨u, hu, hacc⟩ := accepted
      exact ⟨u, List.mem_cons_of_mem _ hu, hacc⟩
  | reserves hc h => exact .reserved

theorem Held.resumes {t : Nat} {s : SpendState} {r : Reply} {q : Request} {env : ε}
    (held : Held S caller args w ws k) (hk : w.tasks t = some k) (hr : S.answer t r w.env)
    (h : resume D w.now k r w.state = .call s k' q) :
    Held S caller args ((w.finish t).suspend s k' env) (w :: ws) k' := by
  have hexec := conclude_call h
  cases held with
  | @waits _ f c hf captured since verifier accepted =>
    rcases k.kinds with ⟨f', hf', ha⟩ | ⟨a, rfl⟩ | ⟨a, ha⟩ | ⟨a, rfl⟩ | ⟨verifier, pin, rfl⟩
    · obtain ⟨hsame, hwaits, hadmitted⟩ := prepares_continuation k r hf ha _ _ _ hexec
      refine .waits hwaits captured (since.resumes h) (fun a ha => ?_) fun a ha => ?_
      · exact ⟨_, List.mem_cons_self, (congrArg _ hsame).trans (hadmitted a ha).2⟩
      · obtain ⟨rfl, -⟩ := hadmitted a (Cont.admitted_of_rechecks ha)
        cases ha
    · cases hf
      have haccepted : Accepted r := by
        rcases accepted_settleVerify r _ _ _ hexec with hacc | ⟨e, he⟩
        · exact hacc
        · cases he
      exact Held.settles captured since (verifier a rfl)
        ⟨w, List.mem_cons_self, t, r, hk, hr, haccepted⟩ h (settles_verify a r _ _ _ hexec)
    · cases (Cont.frame_of_rechecks ha).symm.trans hf
      exact Held.settles captured since (verifier a (Cont.admitted_of_rechecks ha)) (accepted a ha) h
        (settles_continuation k r ha _ _ _ hexec)
    · cases hf
    · cases hf
  | @reserved a =>
    have hcloses := closes_insertBatch a r _ _ _ hexec
    exact hcloses.2.elim

/-- The configuration admits the spend, and nothing is due. -/
structure Admits (a : AdmittedSpend) (u : SpendWorld ε) : Prop where
  envelope : u.state.security.checkEnvelope a.frame.args.envelope = .ok ()
  verifier : u.state.security.verifierCanister = some a.verifier
  unpaused : u.state.security.spendsPaused = false
  epoch : epochAt u = a.frame.capturedEpoch
  quiet : ¬DueAt u

/-- What is compared with an envelope is in the configuration. -/
theorem checkEnvelope_congr {c c' : SecurityCells} (h : c.configuration = c'.configuration)
    (env : ProofEnvelope) : c.checkEnvelope env = c'.checkEnvelope env := by
  obtain ⟨hpins, -⟩ := Prod.mk.inj h
  obtain ⟨hversion, hpins⟩ := Prod.mk.inj hpins
  obtain ⟨hkey, hpins⟩ := Prod.mk.inj hpins
  obtain ⟨hpool, hsystem⟩ := Prod.mk.inj hpins
  simp only [SecurityCells.checkEnvelope, hversion, hkey, hpool, hsystem]

theorem Since.admits {a : AdmittedSpend} {c : SecurityCells} (since : Since c w ws)
    (captured : Captured caller args a.frame c)
    (verifier : ∃ u ∈ w :: ws, u.state.security.verifierCanister = some a.verifier)
    (he : epochAt w = a.frame.capturedEpoch) (hnot : ¬DueAt w) : ∀ u ∈ w :: ws, Admits a u := by
  have steady := since.steady (he.trans captured.epoch) hnot
  have hverifier : c.verifierCanister = some a.verifier := by
    obtain ⟨v, hv, hconfigured⟩ := verifier
    exact (congrArg (fun x => x.2.1) (steady v hv).2.1).symm.trans hconfigured
  intro u hu
  obtain ⟨hepoch, hsame, hquiet⟩ := steady u hu
  exact ⟨captured.args ▸ (checkEnvelope_congr hsame _).trans captured.envelope,
    (congrArg (fun x => x.2.1) hsame).trans hverifier,
    (congrArg (fun x => x.2.2) hsame).trans captured.unpaused,
    hepoch.trans captured.epoch.symm, hquiet⟩

/-- The spend has its nullifiers, in worlds that all admit it, and by a verdict of the
verifier that is still configured. -/
structure Commits (S : Service ε Request Reply) (caller : Principal) (args : PrivateSpendArgs)
    (worlds : List (SpendWorld ε)) (a : AdmittedSpend) (s : SpendState) : Prop where
  caller : a.frame.caller = caller
  args : a.frame.args = args
  reserved : Reserved a s
  admits : ∀ u ∈ worlds, Admits a u
  configured : s.security.verifierCanister = some a.verifier
  accepted : ∃ u ∈ worlds, AcceptedIn S a u

theorem Held.commits {a : AdmittedSpend} {c : SecurityCells} {s : SpendState}
    (captured : Captured caller args a.frame c) (since : Since c w ws)
    (verifier : ∃ u ∈ w :: ws, u.state.security.verifierCanister = some a.verifier)
    (accepted : ∃ u ∈ w :: ws, AcceptedIn S a u)
    (hc : Activates w.now w.state.security s.security) (reserved : Reserved a s) :
    Commits S caller args (w :: ws) a s := by
  have hle : epochAt w ≤ s.security.securityEpoch := by
    rcases hc with ⟨-, hc⟩ | ⟨-, hc⟩
    · exact Nat.le_of_eq (congrArg _ hc.symm)
    · exact hc ▸ Nat.le_succ _
  have hge : a.frame.capturedEpoch ≤ epochAt w :=
    captured.epoch ▸ since.least w List.mem_cons_self
  have he : epochAt w = a.frame.capturedEpoch :=
    Nat.le_antisymm (Nat.le_trans hle (Nat.le_of_eq reserved.epoch)) hge
  obtain ⟨hsame, hnot⟩ := hc.eq_of_epoch (reserved.epoch.trans he.symm)
  have admits := since.admits captured verifier he hnot
  exact ⟨captured.caller, captured.args, reserved, admits,
    hsame ▸ (admits w List.mem_cons_self).verifier, accepted⟩

/-- A spend that comes to its reservation commits. -/
theorem Held.reserves {t : Nat} {a : AdmittedSpend} {s : SpendState} {r : Reply} {q : Request}
    (held : Held S caller args w ws k) (hk : w.tasks t = some k) (hr : S.answer t r w.env)
    (h : resume D w.now k r w.state = .call s (.insertBatch a) q) :
    Commits S caller args (w :: ws) a s := by
  have hexec := conclude_call h
  cases held with
  | @waits _ f c hf captured since verifier accepted =>
    rcases k.kinds with ⟨f', hf', ha⟩ | ⟨b, rfl⟩ | ⟨b, hb⟩ | ⟨b, rfl⟩ | ⟨verifier, pin, rfl⟩
    · obtain ⟨-, hwaits, -⟩ := prepares_continuation k r hf' ha _ _ _ hexec
      cases hwaits
    · cases hf
      have haccepted : Accepted r := by
        rcases accepted_settleVerify r _ _ _ hexec with hacc | ⟨e, he⟩
        · exact hacc
        · cases he
      cases settles_verify b r _ _ _ hexec with
      | waits hk _ => cases hk
      | reserves hc reserved =>
        exact Held.commits captured since (verifier _ rfl)
          ⟨w, List.mem_cons_self, t, r, hk, hr, haccepted⟩ hc reserved
    · cases (Cont.frame_of_rechecks hb).symm.trans hf
      cases settles_continuation k r hb _ _ _ hexec with
      | waits hk _ => cases hk
      | reserves hc reserved =>
        exact Held.commits captured since (verifier _ (Cont.admitted_of_rechecks hb))
          (accepted _ hb) hc reserved
    · cases hf
    · cases hf
  | @reserved b => exact (closes_insertBatch b r _ _ _ hexec).2.elim

/-- How a spend that has not reserved is answered: by an error, and by
`SecurityEpochChanged` only once its record and its locator are gone. -/
structure Refuses (f : SpendFrame) (s : SpendState) (answer : Answer) : Prop where
  error : ∃ e, answer = .spend (.error e)
  gone : answer = .spend (.error .securityEpochChanged) →
    Gone f s ∧ s.security.securityEpoch ≠ f.capturedEpoch

theorem refuses_early {f : SpendFrame} {s : SpendState} {e : PoolError} (he : Early e) :
    Refuses f s (.spend (.error e)) :=
  ⟨⟨e, rfl⟩, fun h => absurd (by cases h; rfl) he⟩

theorem Settles.refuses {a : AdmittedSpend} {c : SecurityCells} {e : PoolError} {s : SpendState}
    (h : Settles w.now a c (.error e) s) : Refuses a.frame s (.spend (.error e)) := by
  cases h with
  | refused he _ => exact refuses_early he
  | aborted _ gone he => exact ⟨⟨_, rfl⟩, fun _ => ⟨gone, he⟩⟩

theorem conclude_reply {answer : Except PoolError Unit → Answer} {x : Spending Next}
    {s t : SpendState} {b : Answer} (h : conclude D answer x s = .reply t b) :
    (∃ e, x.exec s = .ok (.error e, t) ∧ b = answer (.error e)) ∨
      ∃ n, x.exec s = .ok (.ok n, t) ∧ ∀ k, n ≠ .awaits k := by
  unfold conclude at h
  split at h
  · cases h
  · next hexec =>
    cases h
    exact .inl ⟨_, hexec, rfl⟩
  · cases h
  · next hexec =>
    cases h
    exact .inr ⟨_, hexec, fun _ h => nomatch h⟩
  · next hexec =>
    cases h
    exact .inr ⟨_, hexec, fun _ h => nomatch h⟩

theorem Held.refuses {f : SpendFrame} {s : SpendState} {r : Reply} {b : Answer}
    (hf : k.frame? = some f) (h : resume D w.now k r w.state = .reply s b) : Refuses f s b := by
  have settled : ∀ {a : AdmittedSpend} {o : Except PoolError Next},
      Settles w.now a w.state.security o s → (∀ k, o ≠ .ok (.awaits k)) → ∃ e, o = .error e := by
    intro a o hs hn
    cases hs with
    | waits _ _ => exact absurd rfl (hn _)
    | reserves _ _ => exact absurd rfl (hn _)
    | refused _ _ => exact ⟨_, rfl⟩
    | aborted _ _ _ => exact ⟨_, rfl⟩
  rcases k.kinds with ⟨f', hf', ha⟩ | ⟨a, rfl⟩ | ⟨a, ha⟩ | ⟨a, rfl⟩ | ⟨verifier, pin, rfl⟩
  · have hspend : k.answer = .spend := Cont.answer_of_frame hf
    have hprep : Ends SpendState.security (Prepares f') (continuation D w.now r k) :=
      prepares_continuation k r hf' ha
    rcases conclude_reply h with ⟨e, hexec, rfl⟩ | ⟨n, hexec, hn⟩
    · exact hspend ▸ refuses_early (hprep _ _ _ hexec).2
    · cases n with
      | awaits k' => exact absurd rfl (hn k')
      | _ => exact (hprep _ _ _ hexec).2.elim
  · cases hf
    rcases conclude_reply h with ⟨e, hexec, rfl⟩ | ⟨n, hexec, hn⟩
    · exact (settles_verify a r _ _ _ hexec).refuses
    · obtain ⟨e, he⟩ := settled (settles_verify a r _ _ _ hexec) fun k hk => hn k (by cases hk; rfl)
      cases he
  · have hspend : k.answer = .spend := Cont.answer_of_frame hf
    cases (Cont.frame_of_rechecks ha).symm.trans hf
    rcases conclude_reply h with ⟨e, hexec, rfl⟩ | ⟨n, hexec, hn⟩
    · exact hspend ▸ (settles_continuation k r ha _ _ _ hexec).refuses
    · obtain ⟨e, he⟩ := settled (settles_continuation k r ha _ _ _ hexec) fun k hk =>
        hn k (by cases hk; rfl)
      cases he
  · cases hf
  · cases hf

end Held

end World

/-! ### Fee parameters -/

section Fees
variable {α : Type} {p : GovernanceFeeParams} {now : Nat} {D : Deployment} {f : SpendFrame}
  {c : Callees} {a : AdmittedSpend}

def setFeeParams (p : GovernanceFeeParams) (s : SpendState) : SpendState := {s with feeParams := p}

abbrev FeeBlind {ε : Type} (p : GovernanceFeeParams) (x : Message ε α) : Prop :=
  Ignores (setFeeParams p) x

theorem feeBlind_failBeforeStateChange {id : SpendId} {reason : String} {e : PoolError} :
    FeeBlind p (failBeforeStateChange (α := α) now id reason e) :=
  Ignores.bind (ignores_write fun _ => rfl) fun _ => ignores_fail _

theorem feeBlind_leaving {leave : SpendState → SpendState} {x : Spending Next}
    (hl : ∀ s, leave (setFeeParams p s) = setFeeParams p (leave s)) (hx : FeeBlind p x) :
    FeeBlind p (leaving leave x) := by
  intro s
  rw [exec_leaving, exec_leaving, hx s]
  match x.exec s with
  | .error q => rfl
  | .ok (.error e, t) => exact congrArg (fun u => Except.ok (Except.error e, u)) (hl t)
  | .ok (.ok .done, t) => exact congrArg (fun u => Except.ok (Except.ok Next.done, u)) (hl t)
  | .ok (.ok .promotes, t) => exact congrArg (fun u => Except.ok (Except.ok Next.promotes, u)) (hl t)
  | .ok (.ok (.awaits k), t) => rfl

theorem feeBlind_recordSpend (verifier : Principal) :
    FeeBlind p (recordSpend now f c verifier) := by
  have hguard : FeeBlind p (guardNullifiers f.args.nullifiers) :=
    Ignores.bind (ignores_read fun _ => rfl) fun _ => Ignores.bind (ignores_demand _ _) fun _ =>
      Ignores.bind (ignores_write fun _ => rfl) fun _ => ignores_pure _
  have hverify : FeeBlind p (admitVerify f.caller now) :=
    Ignores.bind (ignores_write fun _ => rfl) fun _ => Ignores.bind (ignores_read fun _ => rfl) fun _ =>
      Ignores.bind (ignores_read fun _ => rfl) fun _ => Ignores.bind (ignores_demand _ _) fun _ =>
      ignores_write fun _ => rfl
  have hpayout : FeeBlind p (reservePayout f.args.publicPayout) := by
    unfold reservePayout
    split
    · refine Ignores.bind ?_ fun _ => ignores_pure _
      exact Ignores.bind (ignores_read fun _ => rfl) fun _ => Ignores.bind (ignores_demand _ _) fun _ =>
        Ignores.bind (ignores_demand _ _) fun _ => Ignores.bind (ignores_write fun _ => rfl) fun _ => ignores_pure _
    · exact ignores_pure _
  refine Ignores.bind (ignores_read fun _ => rfl) fun _ => Ignores.bind (ignores_demand _ _) fun _ => ?_
  refine hguard.bind fun _ => feeBlind_leaving (fun _ => rfl) (hverify.bind fun _ => ?_)
  refine feeBlind_leaving (fun _ => rfl) (hpayout.bind fun _ => ?_)
  exact Ignores.bind (ignores_write fun _ => rfl) fun _ => ignores_pure _

theorem feeBlind_attestVerifier : FeeBlind p (attestVerifier now f c) := by
  refine Ignores.bind (ignores_read fun _ => rfl) fun _ => Ignores.bind (ignores_need _ _) fun verifier => ?_
  refine Ignores.bind (ignores_read fun _ => rfl) fun _ => Ignores.bind (ignores_read fun _ => rfl) fun _ => ?_
  split
  · exact feeBlind_recordSpend verifier
  · exact ignores_pure _

theorem feeBlind_requireActiveDevice : FeeBlind p (requireActiveDevice now f c) := by
  refine Ignores.bind (ignores_read fun _ => rfl) fun vetkeys => ?_
  cases vetkeys with
  | none => exact feeBlind_attestVerifier
  | some vetkeys => exact ignores_pure _

theorem feeBlind_precheckNullifiers (nullifiers : List Bytes32) :
    FeeBlind p (precheckNullifiers now f c nullifiers) := by
  cases nullifiers with
  | nil =>
    refine Ignores.bind (ignores_read fun _ => rfl) fun _ => Ignores.bind (ignores_demand _ _) fun _ => ?_
    split
    · exact ignores_pure _
    · exact feeBlind_requireActiveDevice
  | cons n rest => exact ignores_pure _

theorem feeBlind_precheckPrivateSpend : FeeBlind p (precheckPrivateSpend now f) :=
  Ignores.bind (ignores_read fun _ => rfl) fun _ => Ignores.bind (ignores_need _ _) fun _ =>
    Ignores.bind (ignores_need _ _) fun _ => Ignores.bind (ignores_need _ _) fun _ =>
    Ignores.bind (ignores_read fun _ => rfl) fun _ => Ignores.bind (ignores_demand _ _) fun _ =>
    Ignores.bind (ignores_demand _ _) fun _ => feeBlind_precheckNullifiers _

theorem feeBlind_provisionMemoKey (boot : Nat) (r : Reply) : FeeBlind p (provisionMemoKey boot r) := by
  unfold provisionMemoKey
  split
  · refine Ignores.bind (ignores_demand _ _) fun _ => Ignores.bind (ignores_read fun _ => rfl) fun latest => ?_
    refine Ignores.bind (ignores_demand _ _) fun _ => ?_
    split
    · exact ignores_write fun _ => rfl
    · exact ignores_pure _
  · exact ignores_fail _

theorem feeBlind_attested (verifier : Principal) (pin : Bytes32) (r : Reply) :
    FeeBlind p (attested D verifier pin r) := by
  refine Ignores.bind (ignores_lift _) fun reported => ?_
  split
  · exact Ignores.bind (ignores_write fun _ => rfl) fun _ => ignores_fail _
  · exact Ignores.bind (ignores_read fun _ => rfl) fun _ => Ignores.bind (ignores_demand _ _) fun _ =>
      ignores_write fun _ => rfl

theorem feeBlind_checkPayoutFee (payout : PrivateSpendPublicPayout) (r : Reply) :
    FeeBlind p (checkPayoutFee D payout r) :=
  Ignores.bind (ignores_lift _) fun _ => Ignores.bind (ignores_demand _ _) fun _ =>
    Ignores.bind (ignores_read fun _ => rfl) fun _ => ignores_demand _ _

theorem feeBlind_checkPayoutBalance (payout : PrivateSpendPublicPayout) (r : Reply) :
    FeeBlind p (checkPayoutBalance D payout r) :=
  Ignores.bind (ignores_lift _) fun _ => ignores_demand _ _

theorem feeBlind_bumpSecurityEpoch {ε : Type} : FeeBlind p (bumpSecurityEpoch : Message ε Unit) :=
  Ignores.bind (ignores_read fun _ => rfl) fun _ => Ignores.bind (ignores_assert _ _) fun _ =>
    ignores_write fun _ => rfl

theorem feeBlind_reserveNullifiers : FeeBlind p (reserveNullifiers now a) := by
  refine Ignores.bind (ignores_read fun _ => rfl) fun holder => ?_
  cases holder with
  | some id => exact feeBlind_failBeforeStateChange
  | none =>
    refine Ignores.bind (ignores_read fun _ => rfl) fun busy => ?_
    split
    · exact feeBlind_failBeforeStateChange
    · exact Ignores.bind (ignores_write fun _ => rfl) fun _ =>
        Ignores.bind (ignores_write fun _ => rfl) fun _ =>
        Ignores.bind (ignores_write fun _ => rfl) fun _ =>
        Ignores.bind (ignores_write fun _ => rfl) fun _ => ignores_pure _

theorem feeBlind_commitPrivateSpend : FeeBlind p (commitPrivateSpend now a) := by
  have hactivate : FeeBlind p (maybeActivatePendingVk now : Spending Unit) := by
    refine Ignores.bind (ignores_read fun _ => rfl) fun overdue => ?_
    split
    · exact Ignores.bind (ignores_write fun _ => rfl) fun _ => feeBlind_bumpSecurityEpoch
    · exact ignores_pure _
  refine Ignores.bind hactivate fun _ => Ignores.bind (ignores_read fun _ => rfl) fun _ => ?_
  refine Ignores.bind (ignores_read fun _ => rfl) fun _ => Ignores.bind (ignores_demand _ _) fun _ => ?_
  split
  · exact Ignores.bind (ignores_write fun _ => rfl) fun _ => ignores_fail _
  · exact feeBlind_reserveNullifiers

theorem feeBlind_recheckRecord : FeeBlind p (recheckRecord now a) :=
  Ignores.bind (ignores_read fun _ => rfl) fun _ => Ignores.bind (ignores_demand _ _) fun _ =>
    feeBlind_commitPrivateSpend

/-- The fee is compared with the one under the parameters that were captured. -/
theorem feeBlind_recheckNullifiers (nullifiers : List Bytes32) :
    FeeBlind p (recheckNullifiers now a nullifiers) := by
  cases nullifiers with
  | nil =>
    refine Ignores.bind (ignores_lift _) fun expected => ?_
    split
    · exact feeBlind_failBeforeStateChange
    · refine Ignores.bind (ignores_read fun _ => rfl) fun liability => ?_
      split
      · exact feeBlind_failBeforeStateChange
      · split
        · exact ignores_pure _
        · exact feeBlind_recheckRecord
  | cons n rest => exact ignores_pure _

theorem feeBlind_recheckPayout {check : Spending Unit} (h : FeeBlind p check) :
    FeeBlind p (recheckPayout D now a check) := by
  intro s
  rw [exec_recheckPayout, exec_recheckPayout, h s]
  match check.exec s with
  | .error q => rfl
  | .ok (.error e, t) => exact feeBlind_failBeforeStateChange t
  | .ok (.ok u, t) => rfl

theorem feeBlind_resolveVerify (caller : Principal) (failed : Bool) :
    FeeBlind p (resolveVerify caller now failed) := by
  refine Ignores.bind (ignores_write fun _ => rfl) fun _ => ?_
  split
  · exact ignores_write fun _ => rfl
  · exact ignores_pure _

theorem feeBlind_settleVerify (r : Reply) : FeeBlind p (settleVerify D now a r) := by
  have hrecheck : FeeBlind p (recheckPrivateSpend now a) := by
    refine Ignores.bind (ignores_read fun _ => rfl) fun accepted => ?_
    split
    · exact feeBlind_recheckNullifiers _
    · exact feeBlind_failBeforeStateChange
  unfold settleVerify
  split
  · refine Ignores.bind (feeBlind_resolveVerify _ _) fun _ => ?_
    split
    · exact hrecheck
    · exact feeBlind_failBeforeStateChange
  · exact Ignores.bind (feeBlind_resolveVerify _ _) fun _ =>
      Ignores.bind (ignores_write fun _ => rfl) fun _ => feeBlind_failBeforeStateChange
  · exact Ignores.bind (feeBlind_resolveVerify _ _) fun _ =>
      Ignores.bind (ignores_write fun _ => rfl) fun _ => ignores_fail _

theorem feeBlind_settleInsert (r : Reply) : FeeBlind p (settleInsert D now a r) := by
  have hfail : ∀ reason e, FeeBlind p (failStaged now a reason e) := fun _ _ =>
    Ignores.bind (ignores_write fun _ => rfl) fun _ =>
      Ignores.bind (ignores_write fun _ => rfl) fun _ =>
      Ignores.bind (ignores_write fun _ => rfl) fun _ => ignores_fail _
  unfold settleInsert
  split
  · exact Ignores.bind (ignores_write fun _ => rfl) fun _ =>
      Ignores.bind (ignores_write fun _ => rfl) fun _ => ignores_pure _
  · exact hfail _ _
  · dsimp only
    split
    · exact hfail _ _
    · exact Ignores.bind (ignores_write fun _ => rfl) fun _ => ignores_fail _

theorem feeBlind_settleSetVerifier (verifier : Principal) (pin : Bytes32) (r : Reply) :
    FeeBlind p (settleSetVerifier D verifier pin r) := by
  have hattest : FeeBlind p (attestSetVerifier D verifier pin r) :=
    Ignores.bind (ignores_lift _) fun _ => Ignores.bind (ignores_demand _ _) fun _ =>
      Ignores.bind (ignores_read fun _ => rfl) fun _ => Ignores.bind (ignores_demand _ _) fun _ =>
      Ignores.bind (ignores_write fun _ => rfl) fun _ =>
      Ignores.bind (ignores_write fun _ => rfl) fun _ => feeBlind_bumpSecurityEpoch
  exact feeBlind_leaving (fun _ => rfl) (Ignores.bind hattest fun _ => ignores_pure _)

/-- No segment behind the capture looks at the parameters again. -/
theorem feeBlind_continuation (k : Cont) (r : Reply) : FeeBlind p (continuation D now r k) := by
  have hslot : ∀ {caller : Principal} {x : Spending Next}, FeeBlind p x →
      FeeBlind p (leaving (releaseSpendSlot caller) x) := feeBlind_leaving fun _ => rfl
  have hholding : ∀ {a : AdmittedSpend} {x : Spending Next}, FeeBlind p x →
      FeeBlind p (holding a x) := fun hx => hslot (feeBlind_leaving (fun _ => rfl) hx)
  cases k with
  | memoKey f boot =>
    exact hslot (Ignores.bind (feeBlind_provisionMemoKey _ _) fun _ => feeBlind_precheckPrivateSpend)
  | precheckNullifier f c n rest =>
    exact hslot (Ignores.bind (ignores_lift _) fun _ => Ignores.bind (ignores_demand _ _) fun _ =>
      feeBlind_precheckNullifiers _)
  | precheckFee f c payout =>
    exact hslot (Ignores.bind (feeBlind_checkPayoutFee _ _) fun _ => ignores_pure _)
  | precheckBalance f c payout =>
    exact hslot (Ignores.bind (feeBlind_checkPayoutBalance _ _) fun _ => feeBlind_requireActiveDevice)
  | device f c vetkeys =>
    exact hslot (Ignores.bind (ignores_lift _) fun _ => feeBlind_attestVerifier)
  | attest f c verifier pin =>
    exact hslot (Ignores.bind (feeBlind_attested _ _ _) fun _ => feeBlind_recordSpend _)
  | verify a => exact hholding (feeBlind_settleVerify r)
  | recheckNullifier a n rest =>
    refine hholding (Ignores.bind (ignores_lift _) fun spent => ?_)
    split
    · exact feeBlind_failBeforeStateChange
    · exact feeBlind_recheckNullifiers _
  | recheckFee a payout =>
    exact hholding (Ignores.bind (feeBlind_recheckPayout (feeBlind_checkPayoutFee _ _)) fun _ =>
      ignores_pure _)
  | recheckBalance a payout =>
    exact hholding (Ignores.bind (feeBlind_recheckPayout (feeBlind_checkPayoutBalance _ _)) fun _ =>
      feeBlind_recheckRecord)
  | insertBatch a => exact hholding (feeBlind_settleInsert r)
  | setVerifier verifier pin => exact feeBlind_settleSetVerifier verifier pin r

end Fees

/-! ### The guarantee -/

/-- What a spend that waits under `t`, in the latest of these worlds, can still come to. -/
structure Guaranteed {ε : Type} (D : Deployment) (S : Service ε Request Reply) (caller : Principal)
    (args : PrivateSpendArgs) (w : SpendWorld ε) (ws : List (SpendWorld ε)) (t : Nat) : Prop where
  commits : ∀ k r s a q, w.tasks t = some k → S.answer t r w.env →
    resume D w.now k r w.state = .call s (.insertBatch a) q → Commits S caller args (w :: ws) a s
  refuses : ∀ k f r s b, w.tasks t = some k → k.frame? = some f →
    resume D w.now k r w.state = .reply s b → Refuses f s b
  epoch : ∀ u u' e, (canister D).Step S u e u' → epochAt u ≤ epochAt u'
  fees : ∀ now k r p, FeeBlind p (continuation D now r k)

section Guarantee
variable {ε : Type} {D : Deployment} {S : Service ε Request Reply} {caller : Principal}
  {args : PrivateSpendArgs} {opened w : SpendWorld ε} {ws : List (SpendWorld ε)} {t : Nat}

/-- A careful run: a spend reserves its nullifiers under what admitted it, or is refused. -/
theorem private_spend_keeps_epoch
    (life : Thread (canister D) S Careful (.privateSpend caller args) opened (w :: ws) t) :
    Guaranteed D S caller args w ws t where
  commits := fun k r s a q hk hr h => by
    have held : Held S caller args w ws k := by
      refine life.invariant (P := fun l k => ∀ w ws, l = w :: ws → Held S caller args w ws k)
        ?_ ?_ ?_ hk w ws rfl
      · intro s k q e _ hstart w ws hl
        cases hl
        exact Held.opens hstart
      · intro w w' ws t k e hok hk hstep held _ _ hl
        cases hl
        exact (held _ _ rfl).pass hk hok hstep
      · intro w ws t k r s k' q e _ hk hr hres held _ _ hl
        cases hl
        exact (held _ _ rfl).resumes hk hr hres
    exact held.reserves hk hr h
  refuses := fun k f r s b _ hf h => Held.refuses hf h
  epoch := fun _ _ _ hstep => (steps_turn hstep).epoch_le
  fees := fun _ k r _ => feeBlind_continuation k r

end Guarantee

/-! ### A spend played through -/

section Sample

/-- A reply that the method called may give. -/
def Request.fits : Request → Reply → Bool
  | .rawRand, .blob _ | .vkHash _, .blob _ | .containsNullifier _ _, .flag _ | .token _ _, .amount _
  | .hasActiveDevice _ _, .device _ | .verifySpendCanister _ _ _, .verdict _
  | .insertBatch _ _, .verdict _ => true
  | _, .rejected _ => true
  | _, _ => false

/-- Callees that remember what they were asked, and may answer anything that fits. -/
def sampleService : Service (List (Nat × Request)) Request Reply where
  accept t q e e' := e' = (t, q) :: e
  answer t r e := ∃ asked ∈ e, asked.1 = t ∧ asked.2.fits r = true
  move _ _ := False

def samplePlayer : Player sampleService Empty where
  take t q e := (t, q) :: e
  take_ok _ _ _ := rfl
  answers t r e := e.any fun asked => decide (asked.1 = t ∧ asked.2.fits r = true)
  answers_ok t r e h := by
    obtain ⟨asked, hmem, h⟩ := List.any_eq_true.1 h
    exact ⟨asked, hmem, of_decide_eq_true h⟩
  play m _ := nomatch m
  play_ok m := nomatch m

def sampleDeployment : Deployment where
  self := 1
  debugError _ := "MalformedSpendArgs"
  undecodable := "failed to decode candid response"

def sampleArgs : PrivateSpendArgs where
  spendId := 7
  envelope := ⟨1, "groth16", 11, 5, 1, List.replicate 256 0⟩
  nullifiers := [1]
  outputCommitments := [2, 3]
  encryptedOutputs := [[], []]
  fee := 0
  publicPayout := none
  expectedDeploymentConfigHash := none

/-- A pool whose next key is scheduled for the time 10. -/
def sampleState : SpendState where
  deposits := ⟨∅, ∅, ∅, ∅, ∅⟩
  spends := ⟨∅, ∅, ∅, ∅, ∅, ∅⟩
  lease := ⟨1, none⟩
  roots := ⟨(∅ : StableSet Bytes32).insert 5 (), none⟩
  recovery := ⟨Recovery.RecoveryCursor.complete.toBytes, 2, [], none⟩
  security := ⟨1, 11, 1, "groth16", some 12, some 2, some 10, some 20, some 3, false, 4⟩
  wiring := ⟨some 21, some 22, some 23, some 24, some 25, none⟩
  payouts := ⟨1, 0, none⟩
  admission := ⟨∅, none, ∅⟩
  attestation := .matched 3 11
  setVerifierInProgress := false
  accounting := .commit fun _ => 1000
  withdrawalNullifiers := ∅
  feeParams := .launchDefaults

def sampleWorld : SpendWorld (List (Nat × Request)) := ⟨5, sampleState, [], fun _ => none, 0⟩

/-- A spend from its call to the query behind its verdict, with what happens while the
verifier is at work. -/
def sampleMoves (meanwhile : List (Move Input Reply Empty)) : List (Move Input Reply Empty) :=
  [.reply 0 (.flag false)] ++ meanwhile ++ [.reply 1 (.verdict (.ok ()))]

/-- The life that comes to its reservation with the last reply, and whether an activation
was due in it. -/
def reservesWith (r : Reply) (life : List (SpendWorld (List (Nat × Request))) × Nat) : Option Bool :=
  match life.1 with
  | [] => none
  | w :: ws =>
    (w.tasks life.2).bind fun k =>
      match resume sampleDeployment w.now k r w.state with
      | .call _ (.insertBatch _) _ =>
        if samplePlayer.answers life.2 r w.env then some ((w :: ws).any fun u => decide (DueAt u))
        else none
      | _ => none

theorem reservesWith_some {r : Reply} {life : List (SpendWorld (List (Nat × Request))) × Nat} {due : Bool}
    (h : reservesWith r life = some due) : ∃ w ws k s a q, life.1 = w :: ws ∧
      w.tasks life.2 = some k ∧ sampleService.answer life.2 r w.env ∧
      resume sampleDeployment w.now k r w.state = .call s (.insertBatch a) q ∧
      (due = true → ∃ u ∈ w :: ws, DueAt u) := by
  unfold reservesWith at h
  split at h
  · cases h
  · next w ws hl =>
    obtain ⟨k, hk, h⟩ := Option.bind_eq_some_iff.1 h
    split at h
    · next s a q hres =>
      split at h
      · next hanswers =>
        cases h
        refine ⟨w, ws, k, s, a, q, hl, hk, samplePlayer.answers_ok _ _ _ hanswers, hres, fun hany => ?_⟩
        obtain ⟨u, hu, hdue⟩ := List.any_eq_true.1 hany
        exact ⟨u, hu, of_decide_eq_true hdue⟩
      · cases h
    · cases h

/-- Nobody but spends is at work. -/
def undisturbed (_ : SpendWorld (List (Nat × Request))) : Event Input Reply → Bool
  | .call (.privateSpend _ _) | .reply _ _ | .wait => true
  | _ => false

theorem undisturbed_careful (w : SpendWorld (List (Nat × Request))) (e : Event Input Reply)
    (h : undisturbed w e = true) : Careful w e := fun hs => by
  obtain ⟨_, _, _, _, _, rfl, _⟩ := hs.event
  cases h

/-- The spend of 5 comes to its reservation at 8, and nothing was due in between. -/
theorem sampleSpend_commits : ∃ w ws s a, Commits sampleService 31 sampleArgs (w :: ws) a s := by
  have hlife : ((samplePlayer.live (canister sampleDeployment) undisturbed sampleWorld
      (.privateSpend 31 sampleArgs) (sampleMoves [.wait 8])).bind
        (reservesWith (.flag false))) = some false := by
    decide +kernel
  obtain ⟨life, hl, hres⟩ := Option.bind_eq_some_iff.1 hlife
  obtain ⟨w, ws, k, s, a, q, hw, hk, hr, hcall, -⟩ := reservesWith_some hres
  have thread := Player.live_thread undisturbed_careful hl
  rw [hw] at thread
  exact ⟨w, ws, s, a, (private_spend_keeps_epoch thread).commits k _ s a q hk hr hcall⟩

/-- The key of 10 is due at 12, and governance schedules the next one over it. The spend of
5, under the key before both, comes to its reservation at 13. -/
theorem overdue_scheduled_over : ∃ w ws t k s a q,
    Thread (canister sampleDeployment) sampleService (fun _ _ => True)
      (.privateSpend 31 sampleArgs) sampleWorld (w :: ws) t ∧
    w.tasks t = some k ∧ sampleService.answer t (.flag false) w.env ∧
    resume sampleDeployment w.now k (.flag false) w.state = .call s (.insertBatch a) q ∧
    (∃ u ∈ w :: ws, DueAt u) ∧ ¬Commits sampleService 31 sampleArgs (w :: ws) a s := by
  have hlife : ((samplePlayer.live (canister sampleDeployment) (fun _ _ => true) sampleWorld
      (.privateSpend 31 sampleArgs) (sampleMoves [.wait 12,
        .call (.scheduleVkActivation 24 3 13 100 200), .wait 13])).bind
          (reservesWith (.flag false))) = some true := by
    decide +kernel
  obtain ⟨life, hl, hres⟩ := Option.bind_eq_some_iff.1 hlife
  obtain ⟨w, ws, k, s, a, q, hw, hk, hr, hcall, hdue⟩ := reservesWith_some hres
  have thread : Thread (canister sampleDeployment) sampleService (fun _ _ => True)
      (.privateSpend 31 sampleArgs) sampleWorld life.1 life.2 :=
    Player.live_thread (fun _ _ _ => trivial) hl
  obtain ⟨u, hu, hdue⟩ := hdue rfl
  exact ⟨w, ws, life.2, k, s, a, q, hw ▸ thread, hk, hr, hcall, ⟨u, hu, hdue⟩, fun hc =>
    (hc.admits u hu).quiet hdue⟩

end Sample

end StshProtocol.ShieldedPool.PrivateSpend
