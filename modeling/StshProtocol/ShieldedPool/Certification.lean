import StshProtocol.Foundation.Bulletin
import StshProtocol.ShieldedPool.Attestation

/-! Publishing the attestation.

Commits of the accounting publish only a change of the health bit or of the delta; the heartbeat
and the lifecycle hooks always publish, at the current bucket. So what is published is always the
attestation of the current scalars but for its time, and while the pool is healthy it is a function
of the times of the heartbeats and upgrades alone. -/
namespace StshProtocol.ShieldedPool
open Foundation Foundation.Bulletin

/-- The scalars and the certified attestation; `tree` is the leaf of the certified tree and
`published` all that was ever put there. -/
structure AttestedPool where
  accounting : Accounting
  last : Option SolvencyAttestation
  armed : Bool
  tree : Option Bytes
  published : List Bytes

namespace AttestedPool

def attestationPublish (p : AttestedPool) (payload : SolvencyAttestation) : AttestedPool :=
  let bytes := solvencyAttestationBytes payload
  {p with tree := some bytes, last := some payload, published := p.published ++ [bytes]}

def recertifySolvencyAttestation (p : AttestedPool) (now : Nat) : AttestedPool :=
  attestationPublish {p with armed := true} (solvencyAttestationPayload p.accounting.heap now)

def piggybackSolvencyAttestation (p : AttestedPool) (words : AccountingWords) (now : Nat) :
    AttestedPool :=
  if p.armed = false then
    p
  else
    let next := solvencyAttestationPayload words now
    let publishableChange :=
      match p.last with
      | none => true
      | some last => last.healthy != next.healthy || last.publicDeltaE8s != next.publicDeltaE8s
    if publishableChange then attestationPublish p next else p

def commitPoolAccounting (p : AttestedPool) (words : AccountingWords) (now : Nat) : AttestedPool :=
  piggybackSolvencyAttestation {p with accounting := .commit words} words now

/-- The messages that come to the attestation. One that commits may do so several times. -/
inductive Message where
  | commits (now : Nat) (words : List AccountingWords)
  | heartbeat (now : Nat)
  | upgrade (now : Nat)

/-- What `init` does to an empty canister. -/
def init (now : Nat) : AttestedPool :=
  let fresh : AttestedPool := ⟨.commit fun _ => 0, none, false, none, []⟩
  (fresh.commitPoolAccounting (fun _ => 0) now).recertifySolvencyAttestation now

/-- `post_upgrade`: the heap is gone, and the scalars are those of the cell. -/
def postUpgrade (p : AttestedPool) (now : Nat) : AttestedPool :=
  let fresh := {p with last := none, armed := false, tree := none}
  (fresh.commitPoolAccounting p.accounting.cell now).recertifySolvencyAttestation now

def handle (p : AttestedPool) : Message → AttestedPool
  | .commits now words => words.foldl (fun p w => p.commitPoolAccounting w now) p
  | .heartbeat now => p.recertifySolvencyAttestation now
  | .upgrade now => p.postUpgrade now

/-- The pool after its installation and these messages. -/
def run (installed : Nat) (ms : List Message) : AttestedPool := ms.foldl handle (init installed)

/-- The times of the heartbeats and the upgrades. -/
inductive Beat where
  | heartbeat (now : Nat)
  | upgrade (now : Nat)
  deriving DecidableEq, Repr

def Message.beat? : Message → Option Beat
  | .commits _ _ => none
  | .heartbeat now => some (.heartbeat now)
  | .upgrade now => some (.upgrade now)

def beats (ms : List Message) : List Beat := ms.filterMap Message.beat?

/-- The pool is healthy with these scalars. -/
def Healthy (words : AccountingWords) : Prop := (solvencyAttestationPayload words 0).healthy = true

/-- Every commit leaves the pool healthy. -/
def HealthyThroughout (ms : List Message) : Prop :=
  ∀ now words, .commits now words ∈ ms → ∀ w ∈ words, Healthy w

end AttestedPool

/-! ### The judgement -/

theorem payload_bit (words : AccountingWords) (now : Nat) :
    (solvencyAttestationPayload words now).healthy =
      ((rawSolvencyDelta words).any fun raw => decide (0 ≤ raw)) := by
  unfold solvencyAttestationPayload
  cases rawSolvencyDelta words <;> rfl

/-- Nothing but the time of an attestation depends on the time. -/
theorem payload_eq (words : AccountingWords) (now : Nat) :
    solvencyAttestationPayload words now =
      {solvencyAttestationPayload words 0 with attestedAtNs := attestationBucket now} := by
  unfold solvencyAttestationPayload
  cases rawSolvencyDelta words <;> rfl

/-- The published delta is zero in the healthy states and in no other. -/
theorem payload_delta_zero_iff (words : AccountingWords) (now : Nat) :
    (solvencyAttestationPayload words now).publicDeltaE8s = 0 ↔
      (solvencyAttestationPayload words now).healthy = true := by
  unfold solvencyAttestationPayload
  cases rawSolvencyDelta words with
  | none =>
    have hsentinel : attestationOverflowSentinel ≠ 0 := by decide
    exact ⟨fun h => absurd h hsentinel, nofun⟩
  | some raw =>
    show min raw 0 = 0 ↔ decide (0 ≤ raw) = true
    rw [decide_eq_true_iff]
    omega

/-- The terms of the judgement can be represented. -/
structure TermsFit (words : AccountingWords) : Prop where
  escrow : IsI128 (words .escrowBacking)
  pending : IsI128 (words .pendingFeeReimbursements)
  liability : IsI128 (words .privateLiability)
  backing : IsI128 (words .escrowBacking + words .pendingFeeReimbursements)

theorem i128OfU128_of_fits {n : Nat} (h : IsI128 n) : i128OfU128 n = some (n : Int) := by
  have hlt : n < 2 ^ 127 := by
    have := h.2
    omega
  rw [i128OfU128, if_pos hlt]

theorem checkedI128_of_isI128 {n : Int} (h : IsI128 n) : checkedI128 n = some n := by
  rw [checkedI128, if_pos h]

theorem isI128_sub {a b : Int} (ha : IsI128 a) (hb : IsI128 b) (hpos : 0 ≤ a) (hbpos : 0 ≤ b) :
    IsI128 (a - b) := by
  have hlow := hb.2
  have hhigh := ha.2
  constructor
  · omega
  · omega

theorem rawSolvencyDelta_of_some {words : AccountingWords} {escrow pending liability backing raw : Int}
    (hescrow : i128OfU128 (words .escrowBacking) = some escrow)
    (hpending : i128OfU128 (words .pendingFeeReimbursements) = some pending)
    (hliability : i128OfU128 (words .privateLiability) = some liability)
    (hadd : checkedI128 (escrow + pending) = some backing)
    (hsub : checkedI128 (backing - liability) = some raw) : rawSolvencyDelta words = some raw := by
  rw [rawSolvencyDelta, hescrow, hpending, hliability]
  simp only [Option.bind_eq_bind, Option.bind_some, hadd, hsub]

theorem rawSolvencyDelta_of_fits {words : AccountingWords} (h : TermsFit words) :
    rawSolvencyDelta words = some (words .escrowBacking + words .pendingFeeReimbursements -
      words .privateLiability : Int) := by
  have hpos : (0 : Int) ≤ words .escrowBacking + words .pendingFeeReimbursements := by omega
  have hdelta := isI128_sub h.backing h.liability hpos (Int.natCast_nonneg _)
  exact rawSolvencyDelta_of_some (i128OfU128_of_fits h.escrow) (i128OfU128_of_fits h.pending)
    (i128OfU128_of_fits h.liability) (checkedI128_of_isI128 h.backing)
    (checkedI128_of_isI128 hdelta)

/-- The pool is healthy when what backs the liability covers it. -/
theorem payload_healthy_iff {words : AccountingWords} (h : TermsFit words) (now : Nat) :
    (solvencyAttestationPayload words now).healthy = true ↔
      words .privateLiability ≤ words .escrowBacking + words .pendingFeeReimbursements := by
  rw [payload_bit, rawSolvencyDelta_of_fits h, Option.any_some, decide_eq_true_iff]
  omega

/-! ### The board behind the pool -/

/-- What an attestation shows of the scalars: the health bit and the delta. -/
def shownOf (words : AccountingWords) : Bool × Int :=
  ((solvencyAttestationPayload words 0).healthy,
    (solvencyAttestationPayload words 0).publicDeltaE8s)

/-- The bytes that show it. -/
def render (shown : Bool × Int) (now : Nat) : Bytes :=
  solvencyAttestationBytes ⟨shown.2, shown.1, attestationBucket now, attestationSchemaVersion⟩

theorem render_shownOf (words : AccountingWords) (now : Nat) :
    render (shownOf words) now = solvencyAttestationBytes (solvencyAttestationPayload words now) := by
  rw [payload_eq, render, shownOf, solvencyAttestationPayload]
  cases rawSolvencyDelta words <;> rfl

/-- All healthy states are shown alike. -/
theorem shownOf_healthy {words : AccountingWords} (h : AttestedPool.Healthy words) :
    shownOf words = (true, 0) := by
  rw [shownOf, (payload_delta_zero_iff words 0).2 h, h]

namespace AttestedPool

abbrev PoolBoard : Type := Board AccountingWords (Bool × Int) Bytes

/-- What a message is to the board. -/
def Message.notices : Message → List (Notice AccountingWords Nat)
  | .commits now words => words.map (.change now)
  | .heartbeat now | .upgrade now => [.tick now]

/-- The pool has the scalars of the board, and shows and has published what the board has. -/
structure Shows (p : AttestedPool) (b : PoolBoard) : Prop where
  accounting : p.accounting = .commit b.state
  armed : p.armed = true
  last : ∃ last, p.last = some last ∧ (last.healthy, last.publicDeltaE8s) = b.shown ∧
    p.tree = some (solvencyAttestationBytes last)
  published : p.published = b.log

variable {p : AttestedPool} {b : PoolBoard}

theorem shows_publish {words : AccountingWords} (now : Nat) (hwords : p.accounting = .commit words)
    (harmed : p.armed = true) (hpublished : p.published = b.log) :
    Shows (p.attestationPublish (solvencyAttestationPayload words now))
      (publish shownOf render {b with state := words} now) where
  accounting := hwords
  armed := harmed
  last := by
    refine ⟨_, rfl, ?_, rfl⟩
    rw [payload_eq]
    rfl
  published := by
    show p.published ++ _ = b.log ++ [render (shownOf words) now]
    rw [hpublished, render_shownOf]

theorem shows_recertify {words : AccountingWords} (now : Nat) (hwords : p.accounting = .commit words)
    (hpublished : p.published = b.log) :
    Shows (p.recertifySolvencyAttestation now)
      (publish shownOf render {b with state := words} now) := by
  have hheap : p.accounting.heap = words := by
    rw [hwords]
    rfl
  rw [recertifySolvencyAttestation, hheap]
  exact shows_publish now hwords rfl hpublished

theorem Shows.commit (h : Shows p b) (words : AccountingWords) (now : Nat) :
    Shows (p.commitPoolAccounting words now) (post shownOf render b (.change now words)) := by
  obtain ⟨last, hlast, hshown, htree⟩ := h.last
  have harmed : ¬p.armed = false := by
    rw [h.armed]
    exact Bool.noConfusion
  have hnext : ((solvencyAttestationPayload words now).healthy,
      (solvencyAttestationPayload words now).publicDeltaE8s) = shownOf words := by
    rw [payload_eq]
    rfl
  rw [commitPoolAccounting, piggybackSolvencyAttestation, if_neg harmed, post]
  simp only [hlast]
  by_cases hsame : shownOf words = b.shown
  · have hequal := Prod.mk.inj (hshown.trans (hsame.symm.trans hnext.symm))
    rw [if_pos hsame, if_neg (by rw [hequal.1, hequal.2, bne_self_eq_false, bne_self_eq_false]; decide)]
    exact ⟨rfl, h.armed, ⟨last, rfl, hshown, htree⟩, h.published⟩
  · have hchange : (last.healthy != (solvencyAttestationPayload words now).healthy ||
        last.publicDeltaE8s != (solvencyAttestationPayload words now).publicDeltaE8s) = true := by
      by_contra hnot
      rw [Bool.not_eq_true, Bool.or_eq_false_iff, bne_eq_false_iff_eq, bne_eq_false_iff_eq] at hnot
      refine hsame ?_
      rw [← hnext, ← hshown, hnot.1, hnot.2]
    rw [if_neg hsame, if_pos hchange]
    exact shows_publish now rfl h.armed h.published

theorem Shows.commits (h : Shows p b) (now : Nat) (words : List AccountingWords) :
    Shows (words.foldl (fun p w => p.commitPoolAccounting w now) p)
      (Bulletin.run shownOf render b (words.map (.change now))) := by
  induction words generalizing p b with
  | nil => exact h
  | cons w words ih => exact ih (h.commit w now)

/-- A message is to the pool what its notices are to the board. -/
theorem Shows.handle (h : Shows p b) (m : Message) :
    Shows (p.handle m) (Bulletin.run shownOf render b m.notices) := by
  cases m with
  | commits now words => exact h.commits now words
  | heartbeat now => exact shows_recertify now h.accounting h.published
  | upgrade now =>
    have hcell : p.accounting.cell = b.state := by
      rw [h.accounting]
      rfl
    show Shows (p.postUpgrade now) (publish shownOf render {b with state := b.state} now)
    rw [postUpgrade, hcell]
    exact shows_recertify now rfl h.published

/-- The board of an installed pool. -/
def opening (installed : Nat) : PoolBoard :=
  publish shownOf render ⟨fun _ => 0, shownOf fun _ => 0, []⟩ installed

theorem shows_run (installed : Nat) (ms : List Message) :
    Shows (run installed ms)
      (Bulletin.run shownOf render (opening installed) (ms.flatMap Message.notices)) := by
  have hstart : Shows (init installed) (opening installed) :=
    shows_recertify (b := ⟨fun _ => 0, shownOf fun _ => 0, []⟩) installed rfl rfl
  rw [run]
  generalize init installed = p at hstart ⊢
  generalize opening installed = b at hstart ⊢
  induction ms generalizing p b with
  | nil => exact hstart
  | cons m ms ih =>
    rw [List.flatMap_cons, Bulletin.run, List.foldl_append]
    exact ih _ _ (hstart.handle m)

/-! ### What is published -/

theorem ticks_notices (ms : List Message) : ticks (ms.flatMap Message.notices) =
    (beats ms).map fun
      | .heartbeat now | .upgrade now => now := by
  induction ms with
  | nil => rfl
  | cons m ms ih =>
    have hsplit : ticks ((m :: ms).flatMap Message.notices) =
        ticks m.notices ++ ticks (ms.flatMap Message.notices) := List.filterMap_append
    rw [hsplit, ih]
    cases m with
    | commits now words =>
      have hnone : ticks (words.map (Notice.change now)) = [] := by
        rw [ticks, List.filterMap_map]
        exact List.filterMap_eq_nil_iff.2 fun _ _ => rfl
      exact congrArg (· ++ _) hnone
    | heartbeat now => rfl
    | upgrade now => rfl

theorem mem_notices {ms : List Message} {now : Nat} {s : AccountingWords}
    (h : .change now s ∈ ms.flatMap Message.notices) : ∃ words, .commits now words ∈ ms ∧ s ∈ words := by
  obtain ⟨m, hm, hs⟩ := List.mem_flatMap.1 h
  cases m with
  | commits now' words =>
    obtain ⟨w, hw, heq⟩ := List.mem_map.1 hs
    cases heq
    exact ⟨words, hm, hw⟩
  | heartbeat now' => exact nomatch List.mem_singleton.1 hs
  | upgrade now' => exact nomatch List.mem_singleton.1 hs

theorem still_notices {ms : List Message} (h : HealthyThroughout ms) :
    Still shownOf (true, 0) (ms.flatMap Message.notices) := by
  intro now s hmem
  obtain ⟨words, hm, hs⟩ := mem_notices hmem
  exact shownOf_healthy (h now words hm s hs)

theorem opening_shown (installed : Nat) : (opening installed).shown = (true, 0) := by
  have hhealthy : Healthy fun _ => 0 := by
    unfold Healthy
    decide
  exact shownOf_healthy hhealthy

/-- No commit writes the pending reimbursements. -/
def NeverReimburses (ms : List Message) : Prop :=
  ∀ now words, .commits now words ∈ ms → ∀ w ∈ words, w .pendingFeeReimbursements = 0

theorem pending_zero {ms : List Message} (h : NeverReimburses ms) (installed : Nat) :
    (run installed ms).accounting.heap .pendingFeeReimbursements = 0 := by
  rw [(shows_run installed ms).accounting]
  refine run_state (P := fun words : AccountingWords => words .pendingFeeReimbursements = 0) rfl
    fun now s hs => ?_
  obtain ⟨words, hm, hmem⟩ := mem_notices hs
  exact h now words hm s hmem

theorem termsFit_of_pending_zero {words : AccountingWords}
    (hpending : words .pendingFeeReimbursements = 0) (hescrow : IsI128 (words .escrowBacking))
    (hliability : IsI128 (words .privateLiability)) : TermsFit words where
  escrow := hescrow
  pending := by
    rw [hpending]
    decide
  liability := hliability
  backing := by
    have hbacking : (words .escrowBacking : Int) + (0 : Nat) = words .escrowBacking := Int.add_zero _
    rw [hpending, hbacking]
    exact hescrow

/-- The pool is judged healthy exactly when what backs the liability covers it. -/
def Covers (words : AccountingWords) : Prop :=
  ∀ now, (solvencyAttestationPayload words now).healthy = true ↔
    words .privateLiability ≤ words .escrowBacking + words .pendingFeeReimbursements

/-- What is certified is current, judges the pool rightly, and tells nothing of a healthy one. -/
structure Attested (installed : Nat) (ms : List Message) : Prop where
  current : ∃ last, (run installed ms).last = some last ∧
    (run installed ms).tree = some (solvencyAttestationBytes last) ∧
    ∀ now, last.healthy =
        (solvencyAttestationPayload (run installed ms).accounting.heap now).healthy ∧
      last.publicDeltaE8s =
        (solvencyAttestationPayload (run installed ms).accounting.heap now).publicDeltaE8s
  judges : TermsFit (run installed ms).accounting.heap → Covers (run installed ms).accounting.heap
  judgesAll : NeverReimburses ms → IsI128 ((run installed ms).accounting.heap .escrowBacking) →
    IsI128 ((run installed ms).accounting.heap .privateLiability) →
    Covers (run installed ms).accounting.heap
  clamps : ∀ now,
    (solvencyAttestationPayload (run installed ms).accounting.heap now).publicDeltaE8s = 0 ↔
      (solvencyAttestationPayload (run installed ms).accounting.heap now).healthy = true
  blind : ∀ ms', HealthyThroughout ms → HealthyThroughout ms' → beats ms = beats ms' →
    (run installed ms).published = (run installed ms').published

theorem solvency_attested (installed : Nat) (ms : List Message) : Attested installed ms where
  current := by
    have hshows := shows_run installed ms
    obtain ⟨last, hlast, hshown, htree⟩ := hshows.last
    have hcurrent : (last.healthy, last.publicDeltaE8s) =
        shownOf (run installed ms).accounting.heap := by
      rw [hshown, hshows.accounting]
      exact run_current rfl
    obtain ⟨hbit, hdelta⟩ := Prod.mk.inj hcurrent
    refine ⟨last, hlast, htree, fun now => ?_⟩
    rw [payload_eq]
    exact ⟨hbit, hdelta⟩
  judges h := payload_healthy_iff h
  judgesAll hnever hescrow hliability :=
    payload_healthy_iff (termsFit_of_pending_zero (pending_zero hnever installed) hescrow hliability)
  clamps := payload_delta_zero_iff _
  blind ms' h h' hbeats := by
    have hopening := opening_shown installed
    rw [(shows_run installed ms).published, (shows_run installed ms').published]
    refine run_log_eq rfl rfl rfl rfl ?_ ?_ ?_
    · rw [hopening]
      exact still_notices h
    · rw [hopening]
      exact still_notices h'
    · rw [ticks_notices, ticks_notices, hbeats]

end AttestedPool

end StshProtocol.ShieldedPool
