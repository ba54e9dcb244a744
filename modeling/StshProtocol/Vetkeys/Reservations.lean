import StshProtocol.Foundation.Window
import StshProtocol.Vetkeys.Fence

/-! One principal's reservations against what it has dispatched.

What is committed covers the dispatches whose reservations are gone: for each there is a
timestamp at least as late, as long as it is within the window. With the reservations, which are
never more than the quota leaves, that bounds the dispatches of every window. It holds through
each of the steps by which the code moves a principal's capacity, but for the charge of an old
reservation: there it takes that the call was dispatched when the reservation was made. -/
namespace StshProtocol.Vetkeys
open Foundation ShieldedPool Vesting Window

/-- A principal's part of the history. -/
structure PrincipalHistory where
  admitted : List Nat
  dispatched : List Dispatch
  released : List Nat
  charged : List Nat

namespace AdmissionState

def ids (st : AdmissionState) : List Nat := st.reservations.map (·.id)

/-- The dispatches whose reservations are gone. -/
def settled (st : AdmissionState) (log : List Dispatch) : List Dispatch :=
  log.filter fun d => decide (d.id ∉ st.ids)

end AdmissionState

/-- What holds of a principal's state and its history. -/
structure Account (now : Nat) (st : AdmissionState) (h : PrincipalHistory) : Prop where
  used : st.used ≤ deriveQuota
  nodup : st.ids.Nodup
  known : ∀ i ∈ st.ids, i < st.nextReservationId
  admittedKnown : ∀ i ∈ h.admitted, i < st.nextReservationId
  admittedNodup : h.admitted.Nodup
  dispatchedNodup : (h.dispatched.map (·.id)).Nodup
  dispatchedKnown : ∀ d ∈ h.dispatched, d.id < st.nextReservationId
  dispatchedPast : ∀ d ∈ h.dispatched, d.atNs ≤ now
  dispatchedPhase : ∀ d ∈ h.dispatched, ∀ r ∈ st.reservations, r.id = d.id → r.phase = .dispatched
  dispatchedKept : ∀ d ∈ h.dispatched, d.id ∉ h.released
  releasedKnown : ∀ i ∈ h.released, i < st.nextReservationId
  releasedGone : ∀ i ∈ h.released, i ∉ st.ids
  chargedKnown : ∀ i ∈ h.charged, i < st.nextReservationId
  chargedGone : ∀ i ∈ h.charged, i ∉ st.ids
  covered : Covers deriveWindowNs now st.committed ((st.settled h.dispatched).map (·.atNs))
  spaced : Spaced deriveWindowNs deriveQuota (h.dispatched.map (·.atNs))

namespace Account
variable {now now' id : Nat} {st st' : AdmissionState} {h : PrincipalHistory}

theorem default : Account now .default ⟨[], [], [], []⟩ where
  used := Nat.zero_le _
  nodup := .nil
  known _ hi := nomatch hi
  admittedKnown _ hi := nomatch hi
  admittedNodup := .nil
  dispatchedNodup := .nil
  dispatchedKnown _ hd := nomatch hd
  dispatchedPast _ hd := nomatch hd
  dispatchedPhase _ hd := nomatch hd
  dispatchedKept _ hd := nomatch hd
  releasedKnown _ hi := nomatch hi
  releasedGone _ hi := nomatch hi
  chargedKnown _ hi := nomatch hi
  chargedGone _ hi := nomatch hi
  covered := covers_nil
  spaced := spaced_nil

theorem later (ha : Account now st h) (hle : now ≤ now') : Account now' st h :=
  {ha with
    dispatchedPast := fun d hd => Nat.le_trans (ha.dispatchedPast d hd) hle
    covered := ha.covered.later hle}

/-! ### Reservations that go -/

/-- A reservation that is not dispatched is of none of the dispatches. -/
theorem id_ne_of_predispatch (ha : Account now st h) {r : Reservation} (hr : r ∈ st.reservations)
    (hphase : r.phase = .preDispatch) {d : Dispatch} (hd : d ∈ h.dispatched) : r.id ≠ d.id := by
  intro hid
  rw [ha.dispatchedPhase d hd r hr hid] at hphase
  exact nomatch hphase

/-- Reservations that are not dispatched may go: what is settled stays the same. -/
theorem settled_filter (ha : Account now st h) {k : Reservation → Bool}
    (hkeep : ∀ r ∈ st.reservations, k r = false → r.phase = .preDispatch) :
    {st with reservations := st.reservations.filter k}.settled h.dispatched =
      st.settled h.dispatched := by
  refine List.filter_congr fun d hd => decide_eq_decide.2 (not_congr ⟨fun hin => ?_, fun hin => ?_⟩)
  · exact (List.filter_sublist.map _).subset hin
  · obtain ⟨r, hr, hid⟩ := List.mem_map.1 hin
    refine List.mem_map.2 ⟨r, List.mem_filter.2 ⟨hr, ?_⟩, hid⟩
    cases hk : k r with
    | true => rfl
    | false => exact absurd hid (ha.id_ne_of_predispatch hr (hkeep r hr hk) hd)

theorem mem_ids_of_filter {k : Reservation → Bool} {i : Nat}
    (hi : i ∈ {st with reservations := st.reservations.filter k}.ids) : i ∈ st.ids :=
  (List.filter_sublist.map _).subset hi

/-- Reservations that are not dispatched go. -/
theorem filter (ha : Account now st h) {k : Reservation → Bool}
    (hkeep : ∀ r ∈ st.reservations, k r = false → r.phase = .preDispatch) :
    Account now {st with reservations := st.reservations.filter k} h :=
  {ha with
    used := Nat.le_trans (Nat.add_le_add_left (List.length_filter_le _ _) _) ha.used
    nodup := ha.nodup.sublist (List.filter_sublist.map _)
    known := fun i hi => ha.known i (mem_ids_of_filter hi)
    dispatchedPhase := fun d hd r hr => ha.dispatchedPhase d hd r (List.mem_filter.1 hr).1
    releasedGone := fun i hi hin => ha.releasedGone i hi (mem_ids_of_filter hin)
    chargedGone := fun i hi hin => ha.chargedGone i hi (mem_ids_of_filter hin)
    covered := by
      rw [ha.settled_filter hkeep]
      exact ha.covered}

theorem pruneCommitted (ha : Account now st h) : Account now (st.pruneCommitted now) h :=
  {ha with
    used := Nat.le_trans (Nat.add_le_add_right (List.length_filter_le _ _) _) ha.used
    covered := ha.covered.prune (by decide)}

theorem pruneStalePredispatch (ha : Account now st h) :
    Account now (st.pruneStalePredispatch now) h :=
  ha.filter fun r _ hk => by
    by_contra hphase
    exact of_decide_eq_false hk (.inl hphase)

/-! ### The charge of old reservations -/

/-- Old reservations are charged at their creation, which is when their calls were dispatched. -/
theorem staleChargeDispatched (ha : Account now st h)
    (hat : ∀ r ∈ st.reservations, AdmissionState.StaleDispatched now r →
      ∀ d ∈ h.dispatched, d.id = r.id → d.atNs = r.createdAtNs) :
    Account now (st.staleChargeDispatched now)
      {h with charged := (st.staleDispatched now).map (·.id) ++ h.charged} := by
  have hcount : (st.staleDispatched now).length +
      (st.reservations.filter fun r => decide ¬AdmissionState.StaleDispatched now r).length =
        st.reservations.length := by
    have hsplit := List.length_eq_countP_add_countP
      (fun r => decide (AdmissionState.StaleDispatched now r)) (l := st.reservations)
    rw [List.countP_eq_length_filter, List.countP_eq_length_filter] at hsplit
    simpa [AdmissionState.staleDispatched] using hsplit.symm
  have hused := ha.used
  refine {ha with
    used := ?_
    nodup := ha.nodup.sublist (List.filter_sublist.map _)
    known := fun i hi => ha.known i (mem_ids_of_filter hi)
    dispatchedPhase := fun d hd r hr => ha.dispatchedPhase d hd r (List.mem_filter.1 hr).1
    releasedGone := fun i hi hin => ha.releasedGone i hi (mem_ids_of_filter hin)
    chargedKnown := ?_
    chargedGone := ?_
    covered := ?_}
  · simp only [AdmissionState.used, AdmissionState.staleChargeDispatched, List.length_append,
      List.length_map] at hused ⊢
    omega
  · intro i hi
    rcases List.mem_append.1 hi with hi | hi
    · exact ha.known i (mem_ids_of_filter hi)
    · exact ha.chargedKnown i hi
  · intro i hi hin
    rcases List.mem_append.1 hi with hi | hi
    · obtain ⟨r, hr, rfl⟩ := List.mem_map.1 hi
      obtain ⟨r', hr', hid⟩ := List.mem_map.1 hin
      rw [AdmissionState.staleDispatched, List.mem_filter, decide_eq_true_eq] at hr
      rw [AdmissionState.staleChargeDispatched, List.mem_filter, decide_eq_true_eq] at hr'
      exact hr'.2 (List.inj_on_of_nodup_map ha.nodup hr.1 hr'.1 hid.symm ▸ hr.2)
    · exact ha.chargedGone i hi (mem_ids_of_filter hin)
  · have hcharged : Covers deriveWindowNs now ((st.staleDispatched now).map (·.createdAtNs))
        ((h.dispatched.filter fun d => decide (d.id ∈ (st.staleDispatched now).map (·.id))).map
          (·.atNs)) := covers_keys ha.dispatchedNodup fun r hr d hd hid => by
      rw [AdmissionState.staleDispatched, List.mem_filter, decide_eq_true_eq] at hr
      exact Nat.le_of_eq (hat r hr.1 hr.2 d hd hid)
    refine ha.covered.union hcharged fun d _ hgone => ?_
    rw [decide_eq_true_eq] at hgone
    by_cases hin : d.id ∈ st.ids
    · obtain ⟨r, hr, hid⟩ := List.mem_map.1 hin
      refine .inr (decide_eq_true (List.mem_map.2 ⟨r, List.mem_filter.2 ⟨hr, ?_⟩, hid⟩))
      by_contra hstale
      exact hgone (List.mem_map.2 ⟨r, List.mem_filter.2 ⟨hr, by simpa using hstale⟩, hid⟩)
    · exact .inl (decide_eq_true hin)

/-- A reservation more, with a number of its own. -/
theorem reserve (ha : Account now st h) (hroom : st.used < deriveQuota)
    (hid : st.nextReservationId < u64Max) :
    Account now (st.reserve now) {h with admitted := st.nextReservationId :: h.admitted} := by
  have hnext : (st.reserve now).nextReservationId = st.nextReservationId + 1 :=
    satAdd64_eq (by omega)
  have hids : (st.reserve now).ids = st.ids ++ [st.nextReservationId] := List.map_append
  have hnew : st.nextReservationId ∉ st.ids := fun hin => Nat.lt_irrefl _ (ha.known _ hin)
  have hlater {l : List Nat} (hl : ∀ i ∈ l, i < st.nextReservationId) :
      ∀ i ∈ l, i < (st.reserve now).nextReservationId := fun i hi => by
    rw [hnext]
    exact Nat.lt_succ_of_lt (hl i hi)
  have hgone {l : List Nat} (hl : ∀ i ∈ l, i < st.nextReservationId) (hl' : ∀ i ∈ l, i ∉ st.ids) :
      ∀ i ∈ l, i ∉ (st.reserve now).ids := fun i hi hin => by
    rw [hids] at hin
    rcases List.mem_append.1 hin with hin | hin
    · exact hl' i hi hin
    · exact Nat.ne_of_lt (hl i hi) (List.mem_singleton.1 hin)
  refine {ha with
    used := ?_
    nodup := ?_
    known := ?_
    admittedKnown := ?_
    admittedNodup := List.nodup_cons.2 ⟨fun hin => Nat.lt_irrefl _ (ha.admittedKnown _ hin),
      ha.admittedNodup⟩
    dispatchedKnown := fun d hd => hnext ▸ Nat.lt_succ_of_lt (ha.dispatchedKnown d hd)
    dispatchedPhase := ?_
    releasedKnown := hlater ha.releasedKnown
    releasedGone := hgone ha.releasedKnown ha.releasedGone
    chargedKnown := hlater ha.chargedKnown
    chargedGone := hgone ha.chargedKnown ha.chargedGone
    covered := ?_}
  · simp only [AdmissionState.used, AdmissionState.reserve, List.length_append, List.length_cons,
      List.length_nil] at hroom ⊢
    omega
  · rw [hids]
    exact List.nodup_append.2 ⟨ha.nodup, List.nodup_singleton _, fun i hi j hj =>
      List.mem_singleton.1 hj ▸ fun h => hnew (h ▸ hi)⟩
  · intro i hi
    rw [hids] at hi
    rw [hnext]
    rcases List.mem_append.1 hi with hi | hi
    · exact Nat.lt_succ_of_lt (ha.known i hi)
    · exact Nat.lt_succ_of_le (Nat.le_of_eq (List.mem_singleton.1 hi))
  · intro i hi
    rw [hnext]
    rcases List.mem_cons.1 hi with rfl | hi
    · exact Nat.lt_succ_self _
    · exact Nat.lt_succ_of_lt (ha.admittedKnown i hi)
  · intro d hd r hr hid
    rcases List.mem_append.1 hr with hr | hr
    · exact ha.dispatchedPhase d hd r hr hid
    · obtain rfl := List.mem_singleton.1 hr
      exact absurd hid.symm (Nat.ne_of_lt (ha.dispatchedKnown d hd))
  · have hsettled : (st.reserve now).settled h.dispatched = st.settled h.dispatched := by
      refine List.filter_congr fun d hd => decide_eq_decide.2 (not_congr ?_)
      rw [hids, List.mem_append, List.mem_singleton]
      exact or_iff_left (Nat.ne_of_lt (ha.dispatchedKnown d hd))
    rw [hsettled]
    exact ha.covered

/-- The admission pass, for a call that it refuses and for one that it reserves for. -/
theorem swept (ha : Account now st h)
    (hat : ∀ r ∈ st.reservations, AdmissionState.StaleDispatched now r →
      ∀ d ∈ h.dispatched, d.id = r.id → d.atNs = r.createdAtNs) :
    Account now (st.swept now)
      {h with charged := (st.staleDispatched now).map (·.id) ++ h.charged} := by
  have hsame : ((st.pruneCommitted now).pruneStalePredispatch now).staleDispatched now =
      st.staleDispatched now := by
    refine (List.filter_filter).trans (List.filter_congr fun r _ => ?_)
    by_cases hstale : AdmissionState.StaleDispatched now r
    · have hin : AdmissionState.InTime now r := .inl (by rw [hstale.1]; nofun)
      simp [hstale, hin]
    · simp [hstale]
  rw [← hsame]
  exact ha.pruneCommitted.pruneStalePredispatch.staleChargeDispatched fun r hr =>
    hat r (List.mem_filter.1 hr).1

/-! ### The dispatch -/

theorem mem_flip {rs : List Reservation} {r : Reservation} (hr : r ∈ AdmissionState.flip id rs) :
    r ∈ rs ∨ (r.id = id ∧ r.phase = .dispatched) := by
  induction rs with
  | nil => exact nomatch hr
  | cons r' rs ih =>
    rw [AdmissionState.flip] at hr
    split at hr
    · next hfirst =>
      rcases List.mem_cons.1 hr with rfl | hr
      · exact .inr ⟨hfirst.1, rfl⟩
      · exact .inl (List.mem_cons_of_mem _ hr)
    · rcases List.mem_cons.1 hr with rfl | hr
      · exact .inl List.mem_cons_self
      · exact (ih hr).imp_left (List.mem_cons_of_mem _)

theorem ids_flip (id : Nat) (rs : List Reservation) :
    (AdmissionState.flip id rs).map (·.id) = rs.map (·.id) := by
  induction rs with
  | nil => rfl
  | cons r rs ih =>
    rw [AdmissionState.flip]
    split
    · rfl
    · rw [List.map_cons, ih, List.map_cons]

/-- With numbers of their own, no reservation of this one keeps waiting. -/
theorem flip_phase {rs : List Reservation} (hnodup : (rs.map (·.id)).Nodup) {r : Reservation}
    (hr : r ∈ AdmissionState.flip id rs) (hid : r.id = id) : r.phase = .dispatched := by
  induction rs with
  | nil => exact nomatch hr
  | cons r' rs ih =>
    rw [List.map_cons, List.nodup_cons] at hnodup
    rw [AdmissionState.flip] at hr
    split at hr
    · next hfirst =>
      rcases List.mem_cons.1 hr with rfl | hr
      · rfl
      · exact absurd (List.mem_map.2 ⟨r, hr, hid.trans hfirst.1.symm⟩) hnodup.1
    · next hfirst =>
      rcases List.mem_cons.1 hr with rfl | hr
      · cases hphase : r.phase with
        | dispatched => rfl
        | preDispatch => exact absurd ⟨hid, hphase⟩ hfirst
      · exact ih hnodup.2 hr

/-- There is room in the window for the call of a reservation that waits. -/
theorem room (ha : Account now st h) (hstill : st.StillPredispatch id) :
    recent deriveWindowNs now (h.dispatched.map (·.atNs)) < deriveQuota := by
  obtain ⟨r, hr, rfl, hphase⟩ := hstill
  have hsettled : recent deriveWindowNs now ((st.settled h.dispatched).map (·.atNs)) ≤
      st.committed.length := ha.covered.recent_le
  have hopen : (h.dispatched.filter fun d => decide (d.id ∈ st.ids)).length <
      st.reservations.length := by
    have hsub : r.id :: (h.dispatched.filter fun d => decide (d.id ∈ st.ids)).map (·.id) ⊆ st.ids := by
      intro i hi
      rcases List.mem_cons.1 hi with rfl | hi
      · exact List.mem_map_of_mem hr
      · obtain ⟨d, hd, rfl⟩ := List.mem_map.1 hi
        exact of_decide_eq_true (List.mem_filter.1 hd).2
    have hnodup : (r.id ::
        (h.dispatched.filter fun d => decide (d.id ∈ st.ids)).map (·.id)).Nodup := by
      refine List.nodup_cons.2 ⟨fun hin => ?_,
        ha.dispatchedNodup.sublist (List.filter_sublist.map _)⟩
      obtain ⟨d, hd, hid⟩ := List.mem_map.1 hin
      exact ha.id_ne_of_predispatch hr hphase (List.mem_filter.1 hd).1 hid.symm
    have hle := (List.subperm_of_subset hnodup hsub).length_le
    refine Nat.lt_of_succ_le ?_
    simpa [AdmissionState.ids] using hle
  have hall : recent deriveWindowNs now (h.dispatched.map (·.atNs)) ≤
      recent deriveWindowNs now ((st.settled h.dispatched).map (·.atNs)) +
        (h.dispatched.filter fun d => decide (d.id ∈ st.ids)).length := by
    unfold recent AdmissionState.settled
    rw [List.countP_map, List.countP_map, List.countP_filter, ← List.countP_eq_length_filter]
    refine countP_le_add fun d _ hd => ?_
    by_cases hin : d.id ∈ st.ids
    · exact .inr (decide_eq_true hin)
    · exact .inl (by simpa [hin] using hd)
  have hused := ha.used
  unfold AdmissionState.used at hused
  omega

/-- A reservation that waits is dispatched. -/
theorem dispatch (ha : Account now st h) (hst : st.revalidateForDispatch id = some st')
    (who : PrincipalKey) :
    Account now st' {h with dispatched := ⟨who, id, now⟩ :: h.dispatched} := by
  unfold AdmissionState.revalidateForDispatch at hst
  split at hst
  swap
  · exact nomatch hst
  next hstill =>
  obtain rfl := Option.some.inj hst
  have hroom := ha.room hstill
  obtain ⟨r, hr, rfl, hphase⟩ := hstill
  have hids : {st with reservations := AdmissionState.flip r.id st.reservations}.ids = st.ids :=
    ids_flip r.id st.reservations
  have hin : r.id ∈ st.ids := List.mem_map_of_mem hr
  have hnew : r.id ∉ h.dispatched.map (·.id) := fun hold => by
    obtain ⟨d, hd, hid⟩ := List.mem_map.1 hold
    exact ha.id_ne_of_predispatch hr hphase hd hid.symm
  have hlength : (AdmissionState.flip r.id st.reservations).length = st.reservations.length := by
    simpa using congrArg List.length (ids_flip r.id st.reservations)
  refine {ha with
    used := ?_
    nodup := hids ▸ ha.nodup
    known := hids ▸ ha.known
    dispatchedNodup := List.nodup_cons.2 ⟨hnew, ha.dispatchedNodup⟩
    dispatchedKnown := ?_
    dispatchedPast := ?_
    dispatchedPhase := ?_
    dispatchedKept := ?_
    releasedGone := hids ▸ ha.releasedGone
    chargedGone := hids ▸ ha.chargedGone
    covered := ?_
    spaced := ?_}
  · have hused := ha.used
    unfold AdmissionState.used at hused ⊢
    rw [hlength]
    exact hused
  · intro d hd
    rcases List.mem_cons.1 hd with rfl | hd
    · exact ha.known _ hin
    · exact ha.dispatchedKnown d hd
  · intro d hd
    rcases List.mem_cons.1 hd with rfl | hd
    · exact Nat.le_refl now
    · exact ha.dispatchedPast d hd
  · intro d hd r' hr' hid
    rcases List.mem_cons.1 hd with rfl | hd
    · exact flip_phase ha.nodup hr' hid
    · rcases mem_flip hr' with hr' | hr'
      · exact ha.dispatchedPhase d hd r' hr' hid
      · exact hr'.2
  · intro d hd
    rcases List.mem_cons.1 hd with rfl | hd
    · exact fun hreleased => ha.releasedGone _ hreleased hin
    · exact ha.dispatchedKept d hd
  · unfold AdmissionState.settled
    rw [hids, List.filter_cons, if_neg (by simpa using hin)]
    exact ha.covered
  · refine ha.spaced.push (fun t ht => ?_) hroom
    obtain ⟨d, hd, rfl⟩ := List.mem_map.1 ht
    exact ha.dispatchedPast d hd

/-! ### The end of a call, and a call that is given up -/

/-- A reservation that is finalized is committed now, which is no earlier than its dispatch. -/
theorem finalize (ha : Account now st h) : Account now (st.finalize now id).2 h := by
  unfold AdmissionState.finalize
  simp only
  split
  · next hnone =>
    have hsame : st.reservations.filter (fun r => decide (r.id ≠ id)) = st.reservations :=
      List.filter_eq_self.2 (List.length_filter_eq_length_iff.1 hnone)
    rw [hsame]
    exact ha
  · next hsome =>
    have hused := ha.used
    have hle := List.length_filter_le (fun r : Reservation => decide (r.id ≠ id)) st.reservations
    refine {ha with
      used := ?_
      nodup := ha.nodup.sublist (List.filter_sublist.map _)
      known := fun i hi => ha.known i (mem_ids_of_filter hi)
      dispatchedPhase := fun d hd r hr => ha.dispatchedPhase d hd r (List.mem_filter.1 hr).1
      releasedGone := fun i hi hin => ha.releasedGone i hi (mem_ids_of_filter hin)
      chargedGone := fun i hi hin => ha.chargedGone i hi (mem_ids_of_filter hin)
      covered := ?_}
    · simp only [AdmissionState.used, List.length_append, List.length_singleton] at hused ⊢
      omega
    · have hown : Covers deriveWindowNs now [now]
          ((h.dispatched.filter fun d => decide (d.id = id)).map (·.atNs)) :=
        covers_key ha.dispatchedNodup fun d hd _ => ha.dispatchedPast d hd
      refine ha.covered.union hown fun d _ hgone => ?_
      rw [decide_eq_true_eq] at hgone
      by_cases hin : d.id ∈ st.ids
      · obtain ⟨r, hr, hid⟩ := List.mem_map.1 hin
        refine .inr (decide_eq_true ?_)
        by_contra hne
        exact hgone (List.mem_map.2 ⟨r, List.mem_filter.2 ⟨hr, by simpa [hid] using hne⟩, hid⟩)
      · exact .inl (decide_eq_true hin)

/-- What is released was not dispatched. -/
theorem release (ha : Account now st h) (id : Nat) :
    Account now (st.release id).2
      {h with released := if (st.release id).1 then id :: h.released else h.released} := by
  have hkept := ha.filter (k := fun r => decide ¬(r.id = id ∧ r.phase = .preDispatch))
    fun r _ hk => (not_not.1 (of_decide_eq_false hk)).2
  cases hany : (st.release id).1 with
  | false => exact hkept
  | true =>
    have hlength := of_decide_eq_true hany
    obtain ⟨r, hr, hgone⟩ : ∃ r ∈ st.reservations, r.id = id ∧ r.phase = .preDispatch := by
      by_contra hnone
      refine hlength (List.length_filter_eq_length_iff.2 fun r hr => decide_eq_true fun hgone => ?_)
      exact hnone ⟨r, hr, hgone⟩
    obtain ⟨rfl, hphase⟩ := hgone
    refine {hkept with
      dispatchedKept := ?_
      releasedKnown := ?_
      releasedGone := ?_}
    · intro d hd hin
      rcases List.mem_cons.1 hin with hid | hin
      · exact ha.id_ne_of_predispatch hr hphase hd hid.symm
      · exact ha.dispatchedKept d hd hin
    · intro i hi
      rcases List.mem_cons.1 hi with rfl | hi
      · exact ha.known _ (List.mem_map_of_mem hr)
      · exact ha.releasedKnown i hi
    · intro i hi hin
      rcases List.mem_cons.1 hi with rfl | hi
      · obtain ⟨r', hr', hid⟩ := List.mem_map.1 hin
        rw [AdmissionState.release, List.mem_filter, decide_eq_true_eq] at hr'
        exact hr'.2 ⟨hid, List.inj_on_of_nodup_map ha.nodup hr'.1 hr hid ▸ hphase⟩
      · exact hkept.releasedGone i hi hin

end Account

end StshProtocol.Vetkeys
