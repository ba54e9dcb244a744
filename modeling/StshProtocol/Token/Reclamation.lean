import StshProtocol.Token.Replay

/-! The indexes stay exact, and reclamation takes the earliest expired rows.

Every writer of an allowance keeps `Kept` (`does_kept`), and no row outlives by more
than a day the message that wrote it last (`Run.expires`). Since the index is exact,
reclaiming its earliest entries reclaims exactly the earliest expired rows, and nobody's
effective allowance changes (`Kept.reclaimed`). -/
namespace StshProtocol.Token
open Foundation ShieldedPool Handler

variable {b : Allowances} {key : Bytes} {now cap : Nat}

/-! ### Writers -/

theorem lifetime_le {expiresAt : Option Nat} {e : Nat}
    (h : effectiveApprovalLifetime expiresAt now = .effective e) :
    e ≤ u64Max ∧ e ≤ now + maxApprovalTtlNs := by
  have hcap : satAdd64 now maxApprovalTtlNs ≤ u64Max ∧
      satAdd64 now maxApprovalTtlNs ≤ now + maxApprovalTtlNs :=
    ⟨Nat.min_le_right _ _, Nat.min_le_left _ _⟩
  unfold effectiveApprovalLifetime at h
  cases expiresAt with
  | none =>
    obtain rfl := ApprovalLifetime.effective.inj h
    exact hcap
  | some x =>
    simp only at h
    split at h
    · nomatch h
    · obtain rfl := ApprovalLifetime.effective.inj h
      exact ⟨Nat.le_trans (Nat.min_le_right _ _) hcap.1, Nat.le_trans (Nat.min_le_right _ _) hcap.2⟩

theorem Kept.setSome (h : Kept b) {amount e : Nat} (he : e ≤ u64Max) :
    Kept (setAllowance key (previousExpiry b key) amount (some e) b) := by
  unfold setAllowance
  split
  · exact h.remove
  · exact h.put he

/-- A spendable allowance stands at its key, and has not expired. -/
theorem live_of_spendable (h : 0 < effectiveAt now b key) :
    ∃ r, liveAt now b key = some r ∧ b.rows[key]? = some r ∧ effectiveAt now b key = r.amount := by
  have heq := effectiveAt_eq now b key
  cases hl : liveAt now b key with
  | none =>
    rw [hl] at heq
    simp only [Option.elim_none] at heq
    omega
  | some r =>
    rw [hl] at heq
    exact ⟨r, rfl, Option.eq_some_of_filter_eq_some hl, heq⟩

/-- Spending keeps the expiry. -/
theorem Kept.spend (h : Kept b) {amount : Nat} (hlive : 0 < effectiveAt now b key) :
    Kept (setAllowance key (previousExpiry b key) amount (previousExpiry b key) b) := by
  obtain ⟨r, -, hr, -⟩ := live_of_spendable hlive
  obtain ⟨e, he, hle⟩ := h.stated key r hr
  have hprev : previousExpiry b key = some e := by rw [previousExpiry, hr, Option.bind_some, he]
  rw [show setAllowance key (previousExpiry b key) amount (previousExpiry b key) b =
    setAllowance key (previousExpiry b key) amount (some e) b by rw [hprev]]
  exact h.setSome hle

variable {E : Env} {m : Message} {a : Answer} {s t : TokenState}

theorem TransferredFrom.live {caller : Principal} {args : TransferFromArgs} {block : Nat}
    {ctx : Option PoolReceiptContext} (h : TransferredFrom E now caller args block ctx s t) :
    0 < effectiveAt now s.allowances (spendingKey caller args) := by
  have hspend := h.spendable
  have hne := h.nonzero
  omega

theorem does_kept (h : Kept s.allowances) (hdoes : Does cap E m s a t) : Kept t.allowances := by
  cases hdoes with
  | nothing => exact h
  | transfer call ht =>
    obtain ⟨v, -, rfl⟩ := ht.left
    exact h
  | approve call ha =>
    obtain ⟨v, -, rfl⟩ := ha.left
    exact (h.setSome (lifetime_le ha.lifetime).1).prune
  | transferFrom call ht =>
    obtain ⟨v, -, rfl⟩ := ht.left
    exact h.spend ht.live
  | lock => exact h
  | unlock => exact h
  | close call hk hc => cases hc <;> exact h
  | pruneAllowances => exact h.prune
  | pruneDedup => exact h
  | upgrade => exact h

/-! ### When a row was written -/

/-- An approval or a transfer of this entry wrote the allowance at `key`. -/
def Entry.writesAllowance (key : Bytes) (e : Entry) : Bool :=
  match e.message.call, e.answer with
  | .icrc2Approve args, .approve (.ok _) => approvalKey e.message.caller args == key
  | .icrc2TransferFrom args, .transferFrom (.ok _) => spendingKey e.message.caller args == key
  | _, _ => false

theorem get_set {previous expiresAt : Option Nat} {amount : Nat} {k : Bytes} :
    (setAllowance k previous amount expiresAt b).rows[key]? =
      if k = key then (if amount = 0 then none else some ⟨amount, expiresAt⟩) else b.rows[key]? := by
  unfold setAllowance
  split
  · rw [rows_remove, StableMap.get_erase]
  · rw [rows_put, StableMap.get_insert]

theorem get_prune {r : AllowanceRecord} (h : (pruneExpiredAllowances now cap b).rows[key]? = some r) :
    b.rows[key]? = some r := by
  unfold pruneExpiredAllowances at h
  rw [Timed.rows_drop] at h
  split at h
  · cases h
  · exact h

/-- A row that is there after a message was there before, or the message wrote it, with an
expiry within a day or with the expiry of the row before. -/
theorem does_row (h : Does cap E m s a t) {r : AllowanceRecord}
    (hr : t.allowances.rows[key]? = some r) :
    (Entry.writesAllowance key ⟨m, s, a, t⟩ = true ∧
      ((∃ e, r.expiresAt = some e ∧ e ≤ m.now + maxApprovalTtlNs) ∨
        ∃ r₀, s.allowances.rows[key]? = some r₀ ∧ r.expiresAt = r₀.expiresAt)) ∨
    (Entry.writesAllowance key ⟨m, s, a, t⟩ = false ∧ s.allowances.rows[key]? = some r) := by
  cases h with
  | nothing idle =>
    refine .inr ⟨?_, hr⟩
    unfold Entry.writesAllowance
    split
    · next ha =>
      rw [show a = _ from ha] at idle
      nomatch idle
    · next ha =>
      rw [show a = _ from ha] at idle
      nomatch idle
    · rfl
  | approve call ha =>
    rename_i args block e
    obtain ⟨v, -, rfl⟩ := ha.left
    have hrow := get_prune hr
    rw [get_set] at hrow
    unfold Entry.writesAllowance
    rw [call]
    by_cases hk : approvalKey m.caller args = key
    · rw [if_pos hk] at hrow
      split at hrow
      · nomatch hrow
      · cases hrow
        exact .inl ⟨beq_iff_eq.2 hk, .inl ⟨_, rfl, (lifetime_le ha.lifetime).2⟩⟩
    · rw [if_neg hk] at hrow
      exact .inr ⟨beq_eq_false_iff_ne.2 hk, hrow⟩
  | transferFrom call ht =>
    rename_i args block ctx
    have hlive := ht.live
    obtain ⟨v, -, rfl⟩ := ht.left
    rw [show (_ : Allowances).rows[key]? = _ from get_set] at hr
    unfold Entry.writesAllowance
    rw [call]
    by_cases hk : spendingKey m.caller args = key
    · rw [if_pos hk] at hr
      obtain ⟨r₀, -, hr₀, -⟩ := live_of_spendable hlive
      split at hr
      · nomatch hr
      · cases hr
        refine .inl ⟨beq_iff_eq.2 hk, .inr ⟨r₀, hk ▸ hr₀, ?_⟩⟩
        rw [previousExpiry, hr₀, Option.bind_some]
    · rw [if_neg hk] at hr
      exact .inr ⟨beq_eq_false_iff_ne.2 hk, hr⟩
  | transfer call ht =>
    obtain ⟨v, -, rfl⟩ := ht.left
    exact .inr ⟨by unfold Entry.writesAllowance; rw [call], hr⟩
  | lock call => exact .inr ⟨by unfold Entry.writesAllowance; rw [call], hr⟩
  | unlock call => exact .inr ⟨by unfold Entry.writesAllowance; rw [call], hr⟩
  | close call hk hc => exact .inr ⟨by unfold Entry.writesAllowance; rw [call], by cases hc <;> exact hr⟩
  | pruneAllowances call => exact .inr ⟨by unfold Entry.writesAllowance; rw [call], get_prune hr⟩
  | pruneDedup call => exact .inr ⟨by unfold Entry.writesAllowance; rw [call], hr⟩
  | upgrade call => exact .inr ⟨by unfold Entry.writesAllowance; rw [call], hr⟩

section Runs
variable {fee : Nat} {args : InitArgs} {clock : Nat} {log : List Entry}

theorem History.kept (history : History E fee args log s) : Kept s.allowances := by
  refine history.invariant (fun s h => ?_) fun m s a t _ h hdoes => does_kept h hdoes
  obtain ⟨v, rfl, -⟩ := init_ok h
  exact kept_empty

/-- Every row expires within a day of the message that wrote it last. -/
theorem Run.expires (run : Run E fee args clock log s) {r : AllowanceRecord}
    (hr : s.allowances.rows[key]? = some r) :
    ∃ w e, log.find? (Entry.writesAllowance key) = some w ∧ r.expiresAt = some e ∧
      e ≤ w.message.now + maxApprovalTtlNs := by
  induction run generalizing r with
  | genesis h =>
    obtain ⟨v, rfl, -⟩ := init_ok h
    simp [installed, configure, seedAtGenesis, TokenState.fresh, Timed.empty] at hr
  | @step clock log s m run hle hnow ih =>
    rcases does_row (does_step E m s) hr with ⟨hw, hexp⟩ | ⟨hw, hr⟩
    · rw [List.find?_cons_of_pos hw]
      rcases hexp with ⟨e, he, hle⟩ | ⟨r₀, hr₀, he⟩
      · exact ⟨_, e, rfl, he, hle⟩
      · obtain ⟨w, e, hfind, he₀, hle₀⟩ := ih hr₀
        have hpast := run.past (List.mem_of_find?_eq_some hfind)
        refine ⟨_, e, rfl, he.trans he₀, ?_⟩
        show e ≤ m.now + maxApprovalTtlNs
        omega
    · rw [List.find?_cons_of_neg (by rw [hw]; exact Bool.false_ne_true)]
      exact ih hr

end Runs

/-! ### Reclamation -/

/-- The entries `gone` are the earliest expired rows of `b`, at most `cap` of them, `b'`
is left without them, and every effective allowance is from then on what it was. -/
structure Reclaimed (now cap : Nat) (b b' : Allowances) (gone : List (TimeKey Bytes)) : Prop where
  count : gone.length = min cap (expiredRows now b).length
  distinct : (gone.map TimeKey.key).Nodup
  expired : ∀ a ∈ gone, ∃ r, b.rows[a.key]? = some r ∧ r.expiresAt = some a.time ∧ a.time ≤ now
  earliest : ∀ a ∈ gone, ∀ (key : Bytes) (r : AllowanceRecord) (e : Nat), b.rows[key]? = some r →
    r.expiresAt = some e → e ≤ now → key ∉ gone.map TimeKey.key → compare a ⟨e, key⟩ = .lt
  rows : ∀ key : Bytes,
    b'.rows[key]? = if key ∈ gone.map TimeKey.key then none else b.rows[key]?
  unseen : ∀ later, now ≤ later → ∀ key, effectiveAt later b' key = effectiveAt later b key

theorem Kept.reclaimed (h : Kept b) (hnow : now ≤ u64Max) (cap : Nat) :
    Reclaimed now cap b (pruneExpiredAllowances now cap b) (b.due (expiryBound now) cap) where
  count := by rw [h.exact.length_due, ← h.expiredRows_keys hnow, List.length_map]
  distinct := by
    refine List.Nodup.map_on (fun a ha a' ha' hk => ?_)
      ((b.due_sublist _ _).nodup (StableMap.keys_nodup b.byTime))
    exact h.exact.key_inj (Timed.mem_byTime_of_due ha) (Timed.mem_byTime_of_due ha') hk
  expired a ha := h.expired_of_due hnow ha
  earliest a ha key r e hr he hle hkey := by
    have hentry := h.exact.entry_of_row hr he
    have hbound := (before_expiryBound_iff (h.entry_le hentry) hnow).2 hle
    exact Timed.due_earliest ha hentry hbound fun hdue => hkey (List.mem_map_of_mem hdue)
  rows key := by
    rw [pruneExpiredAllowances, Timed.rows_drop]
    congr
  unseen later hlater key := by
    rw [effectiveAt_eq, effectiveAt_eq, h.liveAt_prune hnow hlater]

end StshProtocol.Token
