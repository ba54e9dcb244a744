import StshProtocol.Staking.Executions
import StshProtocol.Foundation.KeyedTotal
import Mathlib.Algebra.Order.BigOperators.Group.List
import Mathlib.Algebra.Order.Group.Nat

/-! Votes, and the snapshot they are counted against.

A vote record is of a position in the snapshot and has its weight, so the votes of a proposal
weigh no more than its snapshot, and neither sum ever saturates (`Polled`). -/
namespace StshProtocol.Staking
open Foundation ShieldedPool Handler

variable {D : Deployment} {E : Token.Env} {own : Principal} {w w' : StakingWorld} {g g' : GovBook} {id : Nat}

/-! ### The count -/

/-- What the votes of a proposal weigh, on one side. -/
def votesWeight (g : GovBook) (id : Nat) (approve : Bool) : Nat :=
  StableMap.sumOn (fun k (v : VoteRecord) =>
    if k.proposalId = id ∧ v.approve = approve then v.votingWeight else 0) g.votes

/-- What the positions in the snapshot of a proposal weigh. -/
def snapshotTotal (g : GovBook) (id : Nat) : Nat :=
  StableMap.sumOn (fun k (e : SnapshotEntry) => if k.proposalId = id then e.weight else 0) g.snapshots

/-- A vote record stands for the position it is filed under, as the snapshot has it. -/
structure Ballot (g : GovBook) (k : SnapshotKey) (v : VoteRecord) : Prop where
  entry : ∃ e : SnapshotEntry, g.snapshots[k]? = some e ∧ v.votingWeight = e.weight ∧ v.voter = e.holder
  proposal : v.proposalId = k.proposalId
  position : v.positionId = some k.positionId

structure Counted (g : GovBook) (id : Nat) (p : Proposal) : Prop where
  approving : p.votesFor = votesWeight g id true
  opposing : p.votesAgainst = votesWeight g id false
  total : p.snapshotTotalWeight = some (snapshotTotal g id)

structure Polled (g : GovBook) : Prop where
  proposals : ∀ (id : Nat) (p : Proposal), g.proposals[id]? = some p → Counted g id p
  snapshots : ∀ (k : SnapshotKey) (e : SnapshotEntry), g.snapshots[k]? = some e →
    k.proposalId < g.nextProposalId
  votes : ∀ (k : SnapshotKey) (v : VoteRecord), g.votes[k]? = some v → Ballot g k v
  fits : ∀ id, snapshotTotal g id ≤ u128Max

/-- All votes of a proposal are votes of its snapshot. -/
theorem votes_le (hvotes : ∀ (k : SnapshotKey) (v : VoteRecord), g.votes[k]? = some v → Ballot g k v)
    (id : Nat) : votesWeight g id true + votesWeight g id false ≤ snapshotTotal g id := by
  unfold votesWeight
  rw [← StableMap.sumOn_add]
  refine StableMap.sumOn_le fun k v hv => ?_
  obtain ⟨e, he, hweight, -⟩ := (hvotes k v hv).entry
  refine ⟨e, he, ?_⟩
  rw [hweight]
  by_cases hk : k.proposalId = id
  · cases v.approve <;> simp [hk]
  · simp [hk]

theorem Ballot.congr {k : SnapshotKey} {v : VoteRecord} (h : Ballot g k v)
    (hsnapshots : g'.snapshots[k]? = g.snapshots[k]?) : Ballot g' k v :=
  ⟨hsnapshots ▸ h.entry, h.proposal, h.position⟩

theorem Counted.congr {p : Proposal} (h : Counted g id p)
    (hvotes : ∀ approve, votesWeight g' id approve = votesWeight g id approve)
    (htotal : snapshotTotal g' id = snapshotTotal g id) : Counted g' id p :=
  ⟨h.approving.trans (hvotes true).symm, h.opposing.trans (hvotes false).symm,
    h.total.trans (congrArg some htotal.symm)⟩

/-- The same counts. -/
structure Recounts (p p' : Proposal) : Prop where
  votesFor : p'.votesFor = p.votesFor
  votesAgainst : p'.votesAgainst = p.votesAgainst
  total : p'.snapshotTotalWeight = p.snapshotTotalWeight

theorem Counted.recounts {p p' : Proposal} (h : Counted g id p) (hr : Recounts p p') : Counted g id p' :=
  ⟨hr.votesFor.trans h.approving, hr.votesAgainst.trans h.opposing, hr.total.trans h.total⟩

theorem Recounts.refl (p : Proposal) : Recounts p p := ⟨rfl, rfl, rfl⟩

/-- Writing a case without a vote. -/
theorem Polled.writes (h : Polled g) (honly : OnlyCase id g g')
    (hcase : ∀ p, (g'.case id).proposal = some p → Counted g id p) : Polled g' := by
  have hvotes : ∀ j approve, votesWeight g' j approve = votesWeight g j approve := fun j approve => by
    unfold votesWeight
    rw [honly.votes]
  have htotal : ∀ j, snapshotTotal g' j = snapshotTotal g j := fun j => by
    unfold snapshotTotal
    rw [honly.snapshots]
  have hcount : ∀ {j p}, Counted g j p → Counted g' j p := fun {j p} hc => hc.congr (hvotes j) (htotal j)
  refine ⟨fun j p hp => ?_, fun k e he => ?_, fun k v hv => ?_, fun j => htotal j ▸ h.fits j⟩
  · by_cases hj : j = id
    · exact hj ▸ hcount (hcase p (hj ▸ hp))
    · exact hcount (h.proposals j p ((congrArg Case.proposal (honly.others j hj)).symm.trans hp))
  · rw [honly.next]
    exact h.snapshots k e (honly.snapshots ▸ he)
  · exact (h.votes k v (honly.votes ▸ hv)).congr (by rw [honly.snapshots])

/-! ### Creating a proposal -/

/-- The saturating sum of a list. -/
theorem foldl_satAdd {α : Type} (f : α → Nat) (l : List α) (total : Nat) (htotal : total ≤ u128Max) :
    l.foldl (fun n a => satAdd128 n (f a)) total = min (total + (l.map f).sum) u128Max := by
  induction l generalizing total with
  | nil => exact (Nat.min_eq_left htotal).symm
  | cons a l ih =>
    have hrest := ih (satAdd128 total (f a)) (Nat.min_le_right _ _)
    rw [List.foldl_cons, hrest, List.map_cons, List.sum_cons]
    unfold satAdd128
    omega

/-- The rows of the positions that may vote. -/
def eligibleRows (b : StakeBook) (closes : Nat) : List (Nat × StakePosition) :=
  b.positions.toList.filter fun e => snapshotEligible b closes e.2

theorem eligiblePositions_eq (b : StakeBook) (closes : Nat) :
    eligiblePositions b closes = (eligibleRows b closes).map Prod.snd := by
  unfold eligiblePositions eligibleRows
  rw [List.filter_map]
  rfl

section Eligible
variable {b : StakeBook} {closes : Nat}

theorem eligible_ids (h : BookFunded b) :
    ((eligiblePositions b closes).map StakePosition.positionId).Nodup := by
  have hrows : (eligibleRows b closes).Sublist b.positions.toList := List.filter_sublist
  have hids : (eligiblePositions b closes).map StakePosition.positionId =
      (eligibleRows b closes).map Prod.fst := by
    rw [eligiblePositions_eq, List.map_map]
    refine List.map_congr_left fun e he => ?_
    exact (h.position e.1 e.2 (StableMap.mem_toList.1 (hrows.subset he))).1.named
  rw [hids]
  exact StableMap.nodup_map_fst hrows

theorem eligible_sum_le (h : BookFunded b) (closes : Nat) :
    ((eligiblePositions b closes).map StakePosition.votingWeight).sum ≤ u128Max := by
  have hrows : (eligibleRows b closes).Sublist b.positions.toList := List.filter_sublist
  rw [eligiblePositions_eq, List.map_map]
  refine Nat.le_trans ?_ h.fits
  exact (hrows.map fun e => e.2.votingWeight).sum_le_sum fun _ _ => Nat.zero_le _

theorem snapshotSum_eq (h : BookFunded b) : snapshotSum (eligiblePositions b closes) =
    ((eligiblePositions b closes).map StakePosition.votingWeight).sum := by
  rw [snapshotSum, foldl_satAdd StakePosition.votingWeight _ _ (Nat.zero_le _), Nat.zero_add]
  exact Nat.min_eq_left (eligible_sum_le h closes)

end Eligible

/-- The book after an id was given out, with the snapshot of these positions. -/
def GovBook.opened (g : GovBook) (eligible : List StakePosition) : GovBook :=
  insertSnapshot g.nextProposalId eligible g.numbered

section Opened
variable {eligible : List StakePosition}

theorem opened_snapshots (g : GovBook) (eligible : List StakePosition) :
    (g.opened eligible).snapshots = StableMap.insertAll
      (fun pos : StakePosition => ⟨g.nextProposalId, pos.positionId⟩)
      (fun pos : StakePosition => ⟨pos.holder, pos.votingWeight⟩) eligible g.snapshots := rfl

/-- Snapshots of older proposals stay. -/
theorem opened_old {k : SnapshotKey} (hk : k.proposalId < g.nextProposalId) :
    (g.opened eligible).snapshots[k]? = g.snapshots[k]? := by
  rw [opened_snapshots]
  refine StableMap.insertAll_other fun pos _ heq => ?_
  rw [← heq] at hk
  exact Nat.lt_irrefl _ hk

theorem Polled.ballot_old (h : Polled g) {k : SnapshotKey} {v : VoteRecord} (hv : g.votes[k]? = some v) :
    k.proposalId < g.nextProposalId := by
  obtain ⟨e, he, -⟩ := (h.votes k v hv).entry
  exact h.snapshots k e he

theorem Polled.opened_total (h : Polled g) (hids : (eligible.map StakePosition.positionId).Nodup) (j : Nat) :
    snapshotTotal (g.opened eligible) j = snapshotTotal g j +
      if j = g.nextProposalId then (eligible.map StakePosition.votingWeight).sum else 0 := by
  have hkeys : (eligible.map fun pos => SnapshotKey.mk g.nextProposalId pos.positionId).Nodup := by
    have hinj : Function.Injective (SnapshotKey.mk g.nextProposalId) := fun a b hab =>
      congrArg SnapshotKey.positionId hab
    have hmap := hids.map hinj
    rwa [List.map_map] at hmap
  have hnew : ∀ pos ∈ eligible, g.snapshots[SnapshotKey.mk g.nextProposalId pos.positionId]? = none :=
    fun pos _ => by
      cases he : g.snapshots[SnapshotKey.mk g.nextProposalId pos.positionId]? with
      | none => rfl
      | some e => exact absurd (h.snapshots _ e he) (Nat.lt_irrefl _)
  unfold snapshotTotal
  rw [opened_snapshots, StableMap.sumOn_insertAll hkeys hnew]
  congr 1
  by_cases hj : j = g.nextProposalId
  · rw [if_pos hj]
    exact congrArg List.sum (List.map_congr_left fun pos _ => if_pos hj.symm)
  · rw [if_neg hj, List.map_congr_left fun pos _ => if_neg fun heq => hj heq.symm]
    simp

theorem Polled.unpolled (h : Polled g) : snapshotTotal g g.nextProposalId = 0 ∧
    ∀ approve, votesWeight g g.nextProposalId approve = 0 := by
  refine ⟨StableMap.sumOn_eq_zero fun k e he => ?_, fun approve => StableMap.sumOn_eq_zero fun k v hv => ?_⟩
  · exact if_neg (Nat.ne_of_lt (h.snapshots k e he))
  · exact if_neg fun hc => Nat.ne_of_lt (h.ballot_old hv) hc.1

/-- An id is given out with a snapshot. -/
theorem Polled.opened (h : Polled g)
    (hold : ∀ (id : Nat) (p : Proposal), g.proposals[id]? = some p → id < g.nextProposalId)
    (hids : (eligible.map StakePosition.positionId).Nodup)
    (hsum : (eligible.map StakePosition.votingWeight).sum ≤ u128Max) : Polled (g.opened eligible) := by
  have htotal := h.opened_total hids
  refine ⟨fun id p hp => ?_, fun k e he => ?_, fun k v hv => ?_, fun j => ?_⟩
  · have hc := h.proposals id p hp
    refine ⟨hc.approving, hc.opposing, ?_⟩
    rw [htotal, if_neg (Nat.ne_of_lt (hold id p hp))]
    exact hc.total
  · show k.proposalId < g.nextProposalId + 1
    rw [opened_snapshots] at he
    rcases StableMap.insertAll_get he with hbefore | ⟨pos, -, rfl, -⟩
    · exact Nat.lt_succ_of_lt (h.snapshots k e hbefore)
    · exact Nat.lt_succ_self _
  · exact (h.votes k v hv).congr (opened_old (h.ballot_old hv))
  · rw [htotal]
    split
    · next hj =>
      rw [hj, h.unpolled.1, Nat.zero_add]
      exact hsum
    · exact h.fits j

end Opened

theorem Polled.creates (h : Polled g)
    (hold : ∀ (id : Nat) (p : Proposal), g.proposals[id]? = some p → id < g.nextProposalId)
    {now : Nat} {b : StakeBook} (hb : BookFunded b) (hc : Creates now b g g') : Polled g' := by
  cases hc with
  | nothing => exact h
  | unheard => exact h.opened hold (eligible_ids hb) (eligible_sum_le hb _)
  | @created proposer ty description schedule hdue =>
    have hopened := h.opened hold (eligible_ids hb) (eligible_sum_le hb schedule.closes)
    refine hopened.writes (onlyCase_put _ _ _) fun p hp => ?_
    rw [case_put] at hp
    obtain rfl := Option.some.inj hp
    obtain ⟨hnoTotal, hnoVotes⟩ := h.unpolled
    refine ⟨(hnoVotes true).symm, (hnoVotes false).symm, congrArg some ?_⟩
    rw [h.opened_total (eligible_ids hb), if_pos rfl, hnoTotal, Nat.zero_add]
    exact snapshotSum_eq hb

/-! ### Voting -/

section Cast
variable {voter : Principal} {approve : Bool} {now : Nat}

/-- The book after these votes, before they are tallied. -/
def GovBook.cast (g : GovBook) (now id : Nat) (voter : Principal) (approve : Bool) : GovBook :=
  {g with votes := castVotes now voter approve (unvoted g id voter) g.votes}

theorem cast_votes (g : GovBook) (now id : Nat) (voter : Principal) (approve : Bool) :
    (g.cast now id voter approve).votes = StableMap.insertAll Prod.fst
      (fun e : SnapshotKey × SnapshotEntry =>
        ⟨e.1.proposalId, some e.1.positionId, voter, approve, e.2.weight, now⟩)
      (unvoted g id voter) g.votes := rfl

/-- A vote that is cast is of a position of the voter in the snapshot, which did not vote. -/
theorem unvoted_mem {e : SnapshotKey × SnapshotEntry} (h : e ∈ unvoted g id voter) :
    g.snapshots[e.1]? = some e.2 ∧ e.1.proposalId = id ∧ e.2.holder = voter ∧ g.votes[e.1]? = none := by
  obtain ⟨hentry, hunvoted⟩ := List.mem_filter.1 h
  obtain ⟨hmem, hof⟩ := List.mem_filter.1 hentry
  obtain ⟨hproposal, hholder⟩ := of_decide_eq_true hof
  refine ⟨StableMap.mem_toList.1 hmem, hproposal, hholder, ?_⟩
  rw [Bool.not_eq_true', ← Bool.not_eq_true] at hunvoted
  exact StableMap.not_contains_iff.1 hunvoted

theorem unvoted_keys : ((unvoted g id voter).map Prod.fst).Nodup :=
  StableMap.nodup_map_fst (List.filter_sublist.trans List.filter_sublist)

/-- What the votes that are cast weigh. -/
def unvotedWeight (g : GovBook) (id : Nat) (voter : Principal) : Nat :=
  ((unvoted g id voter).map fun e => e.2.weight).sum

theorem cast_weight (g : GovBook) (now id : Nat) (voter : Principal) (approve : Bool) (j : Nat) (side : Bool) :
    votesWeight (g.cast now id voter approve) j side = votesWeight g j side +
      if j = id ∧ side = approve then unvotedWeight g id voter else 0 := by
  unfold votesWeight
  rw [cast_votes, StableMap.sumOn_insertAll unvoted_keys fun e he => (unvoted_mem he).2.2.2]
  congr 1
  by_cases hj : j = id ∧ side = approve
  · rw [if_pos hj]
    refine congrArg List.sum (List.map_congr_left fun e he => if_pos ⟨?_, hj.2.symm⟩)
    exact (unvoted_mem he).2.1.trans hj.1.symm
  · rw [if_neg hj, List.map_congr_left fun e he => if_neg fun hc => hj ?_]
    · simp
    · exact ⟨hc.1.symm.trans (unvoted_mem he).2.1, hc.2.symm⟩

theorem Polled.cast_ballots (h : Polled g) {k : SnapshotKey} {v : VoteRecord}
    (hv : (g.cast now id voter approve).votes[k]? = some v) : Ballot (g.cast now id voter approve) k v := by
  rw [cast_votes] at hv
  rcases StableMap.insertAll_get hv with hold | ⟨e, he, rfl, rfl⟩
  · exact (h.votes k v hold).congr rfl
  · obtain ⟨hentry, -, hholder, -⟩ := unvoted_mem he
    exact ⟨⟨e.2, hentry, rfl, hholder.symm⟩, rfl, rfl⟩

theorem Polled.votes_cast (h : Polled g) {p : Proposal} (hp : g.proposals[id]? = some p) :
    Polled ((g.cast now id voter approve).put id (tally approve (castWeight (unvoted g id voter)) p)) := by
  have hballots : ∀ (k : SnapshotKey) (v : VoteRecord),
      (g.cast now id voter approve).votes[k]? = some v → Ballot (g.cast now id voter approve) k v :=
    fun k v hv => h.cast_ballots hv
  have hweight := cast_weight g now id voter approve
  have hc := h.proposals id p hp
  -- All the votes weigh no more than the snapshot, so no sum saturates.
  have hfits : votesWeight (g.cast now id voter approve) id true +
      votesWeight (g.cast now id voter approve) id false ≤ u128Max :=
    Nat.le_trans (votes_le hballots id) (h.fits id)
  have hcast : castWeight (unvoted g id voter) = unvotedWeight g id voter := by
    rw [castWeight, foldl_satAdd (fun e : SnapshotKey × SnapshotEntry => e.2.weight) _ _ (Nat.zero_le _),
      Nat.zero_add]
    refine Nat.min_eq_left ?_
    show unvotedWeight g id voter ≤ u128Max
    rw [hweight, hweight] at hfits
    cases approve <;> simp at hfits <;> omega
  have hother : ∀ (j : Nat) (q : Proposal), j ≠ id → (g.cast now id voter approve).proposals[j]? = some q →
      Counted (g.cast now id voter approve) j q := fun j q hj hq => by
    have hold := h.proposals j q hq
    refine ⟨?_, ?_, hold.total⟩
    · rw [hweight, if_neg fun hc => hj hc.1]
      exact hold.approving
    · rw [hweight, if_neg fun hc => hj hc.1]
      exact hold.opposing
  have hown : Counted (g.cast now id voter approve) id (tally approve (castWeight (unvoted g id voter)) p) := by
    rw [hcast]
    rw [hweight, hweight] at hfits
    have hfor := hc.approving
    have hagainst := hc.opposing
    cases approve with
    | true =>
      refine ⟨?_, ?_, hc.total⟩
      · rw [hweight]
        simp [tally, satAdd128] at hfits ⊢
        omega
      · rw [hweight]
        simp [tally, hagainst]
    | false =>
      refine ⟨?_, ?_, hc.total⟩
      · rw [hweight]
        simp [tally, hfor]
      · rw [hweight]
        simp [tally, satAdd128] at hfits ⊢
        omega
  refine ⟨fun j q hq => ?_, h.snapshots, fun k v hv => (hballots k v hv).congr rfl, h.fits⟩
  refine Counted.congr (g := g.cast now id voter approve) ?_ (fun _ => rfl) rfl
  by_cases hj : j = id
  · subst hj
    have hq' := (congrArg Case.proposal (case_put (g.cast now j voter approve) j _)).symm.trans hq
    obtain rfl := Option.some.inj hq'
    exact hown
  · have hq' := (congrArg Case.proposal ((onlyCase_put (g.cast now id voter approve) id
      (tally approve (castWeight (unvoted g id voter)) p)).others j hj)).symm.trans hq
    exact hother j q hj hq'

end Cast

theorem Polled.votes_ends (h : Polled g) {now : Nat} {voter : Principal} {approve : Bool}
    (hv : g' = g ∨ ∃ p, Casts now g id voter p ∧
      g' = ({g with votes := castVotes now voter approve (unvoted g id voter) g.votes} : GovBook).put id
        (tally approve (castWeight (unvoted g id voter)) p)) : Polled g' := by
  rcases hv with rfl | ⟨p, hcasts, rfl⟩
  · exact h
  · exact h.votes_cast hcasts.found

/-! ### Every step and every run -/

section Steps
variable {now : Nat} {s t : StakingState}

/-- The record is written again with the same counts. -/
theorem Polled.rewrites (h : Polled g) (honly : OnlyCase id g g') {p p' : Proposal}
    (hp : g.proposals[id]? = some p) (hcase : (g'.case id).proposal = some p') (hr : Recounts p p') :
    Polled g' := by
  refine h.writes honly fun q hq => ?_
  obtain rfl := Option.some.inj (hcase.symm.trans hq)
  exact (h.proposals id p hp).recounts hr

theorem Polled.executes (h : Polled s.gov) {r : Except String Executed} (hx : Executes now id s t r) :
    Polled t.gov := by
  cases hx with
  | nothing hg _ => exact hg.symm ▸ h
  | rejects htried _ honly hcase =>
    exact h.rewrites honly htried.found (congrArg Case.proposal hcase) ⟨rfl, rfl, rfl⟩
  | ends htried _ honly hcase _ _ =>
    exact h.rewrites honly htried.found (congrArg Case.proposal hcase) ⟨rfl, rfl, rfl⟩
  | calls htried _ honly hcase _ =>
    exact h.rewrites honly htried.found (congrArg Case.proposal hcase) ⟨rfl, rfl, rfl⟩

theorem Polled.answered (h : Polled s.gov) {task : Execution} {reply : Reply}
    (hunder : Underway now (s.gov.case task.proposalId) task) {r : Except String Executed}
    (ha : Answered D task reply s t r) : Polled t.gov := by
  obtain ⟨p, hp, hfollows⟩ := hunder.found
  -- The proposal that was captured has the counts of the one that is stored.
  have hsame : Recounts p task.proposal := by
    cases hfollows <;> exact ⟨rfl, rfl, rfl⟩
  cases ha with
  | ends honly hcase _ _ =>
    exact h.rewrites honly hp (congrArg Case.proposal hcase)
      ⟨hsame.votesFor, hsame.votesAgainst, hsame.total⟩
  | calls honly hcase _ _ _ =>
    exact h.rewrites honly hp ((congrArg Case.proposal hcase).trans hp) (.refl p)

theorem Polled.reconciles (h : Polled s.gov) (hr : Reconciles now id s t) : Polled t.gov := by
  cases hr with
  | nothing hg => exact hg.symm ▸ h
  | clock hp _ _ hgov =>
    rw [hgov]
    exact h.rewrites (onlyCase_put _ _ _) hp (congrArg Case.proposal (case_put _ _ _)) ⟨rfl, rfl, rfl⟩
  | commits _ hp _ honly hcase =>
    exact h.rewrites honly hp (congrArg Case.proposal hcase) ⟨rfl, rfl, rfl⟩

end Steps

theorem Polled.call (h : Polled w.state.gov) (hfunded : Funded w) (hdocketed : Docketed w) {i : Input}
    (hl : Lands (callees E own) w (start w.now i w.state) w') : Polled w'.state.gov := by
  have hsame : w'.state.gov = w.state.gov → Polled w'.state.gov := fun hg => hg ▸ h
  cases i with
  | stake caller amount lockDays key =>
    have hc : Concluded E own Staked.next (Staking.stake w.now caller amount lockDays key) w w' :=
      conclude_lands hl
    obtain ⟨r, hexec⟩ := hc.committed
    exact hsame (stake_gov hexec)
  | unstake caller positionId =>
    have hc : Concluded E own unstaked (Staking.unstake w.now caller positionId) w w' := conclude_lands hl
    obtain ⟨r, hexec⟩ := hc.committed
    exact hsame (unstake_gov hexec)
  | reconcileLock isController opId decision =>
    obtain ⟨r, t, hexec, rfl⟩ := conclude_ends hl
    exact hsame (reconcileLock_gov hexec)
  | reconcileUnlock isController opId decision =>
    obtain ⟨r, t, hexec, rfl⟩ := conclude_ends hl
    exact hsame (reconcileUnlock_gov hexec)
  | claimRewards caller positionId =>
    obtain ⟨r, t, hexec, rfl⟩ := conclude_ends hl
    exact hsame (by rw [readOnly_claimRewards _ _ _ _ _ hexec])
  | receiveFeeRevenue caller amount =>
    obtain ⟨r, t, hexec, rfl⟩ := conclude_ends hl
    exact hsame (receiveFeeRevenue_gov hexec)
  | createProposal caller proposalType description =>
    obtain ⟨r, t, hexec, rfl⟩ := conclude_ends hl
    exact h.creates hdocketed.old hfunded.book (createProposal_ends hexec)
  | vote caller proposalId approve =>
    obtain ⟨r, t, hexec, rfl⟩ := conclude_ends hl
    exact h.votes_ends (vote_ends hexec)
  | executeProposal proposalId =>
    have hc : Concluded E own Executed.next (executeProposal w.now proposalId) w w' := conclude_lands hl
    obtain ⟨r, hexec⟩ := hc.committed
    exact h.executes (executeProposal_ends hexec)
  | reconcileStuckProposal isController proposalId decision =>
    obtain ⟨r, t, hexec, rfl⟩ := conclude_ends hl
    exact h.reconciles (reconcileStuckProposal_ends hexec)

theorem Polled.reply (h : Polled w.state.gov) (hdocketed : Docketed w) {n : Nat} {k : Cont} {r : Reply}
    (hk : w.tasks n = some k) (hl : Lands (callees E own) (w.finish n) (resume D k r w.state) w') :
    Polled w'.state.gov := by
  cases k with
  | lock t =>
    obtain ⟨b, s, hexec, rfl⟩ := conclude_ends hl
    obtain rfl := lockAnswered_ends hexec
    exact h
  | unlock t =>
    obtain ⟨b, s, hexec, rfl⟩ := conclude_ends hl
    obtain rfl := unlockAnswered_ends hexec
    exact h
  | execute t =>
    have hc : Concluded E own Executed.next (executeAnswered D t r) (w.finish n) w' := conclude_lands hl
    obtain ⟨b, hexec⟩ := hc.committed
    exact h.answered (hdocketed.tasks n t hk) (executeAnswered_ends hexec)

theorem Polled.step (h : Polled w.state.gov) (hfunded : Funded w) (hdocketed : Docketed w)
    {a : Event Input Reply} (hstep : (canister D).Step (callees E own) w a w') : Polled w'.state.gov := by
  cases hstep with
  | call hl => exact h.call hfunded hdocketed hl
  | callTrap _ => exact h
  | reply hk _ hl => exact h.reply hdocketed hk hl
  | replyTrap _ _ _ => exact h
  | @upgrade s hs =>
    obtain ⟨m, params, hcell, -, hgov⟩ := (upgrade_ok hs hfunded.book.initialized).gov
    obtain rfl := Option.some.inj (hdocketed.cell.symm.trans hcell)
    show Polled s.gov
    rw [hgov]
    exact ⟨fun id p hp => (h.proposals id p hp).congr (fun _ => rfl) rfl, h.snapshots,
      fun k v hv => (h.votes k v hv).congr rfl, h.fits⟩
  | wait _ => exact h
  | elsewhere _ => exact h
  | others hs =>
    obtain rfl := hs
    exact h

theorem Installed.polled (h : Installed E own w) : Polled w.state.gov := by
  obtain ⟨args, hinit⟩ := h.state
  obtain ⟨-, params, -, hgov⟩ := init_ok hinit
  rw [hgov]
  refine ⟨fun id p hp => ?_, fun k e he => ?_, fun k v hv => ?_, fun id => ?_⟩
  · simp [GovBook.fresh] at hp
  · simp [GovBook.fresh] at he
  · simp [GovBook.fresh] at hv
  · exact Nat.zero_le _

/-- In the orderly runs whose lock assertions are true, the counts are those of the votes. -/
theorem polled_run (run : (system D E own).RunIf (fun w a => Truthful w a ∧ Orderly D w a) w) :
    Polled w.state.gov := by
  refine run.invariant (I := fun w => Polled w.state.gov) (fun _ h => Installed.polled h)
    fun v a v' hrun h _ hstep => ?_
  have hfunded : Funded v := funded_run (hrun.mono fun _ _ h => h.1)
  exact Polled.step h hfunded (docketed_run hrun) hstep

end StshProtocol.Staking
