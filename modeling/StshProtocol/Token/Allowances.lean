import StshProtocol.Token.Basic
import StshProtocol.Foundation.TimeIndex

/-! `ALLOWANCES` and its expiry index.

Every allowance is written with an expiry, within a day of the write, and has one
entry in `ALLOWANCES_BY_EXPIRY`; the writers keep the two in step
(`Allowances.Kept`). Reclamation takes the earliest expired rows off both
(`pruneExpiredAllowances`), and since an expired allowance is worth nothing already,
nobody can tell whether it ran (`liveAt_prune`). -/
namespace StshProtocol.Token
open Foundation ShieldedPool

structure AllowanceRecord where
  amount : Nat
  expiresAt : Option Nat
  deriving DecidableEq, Repr

/-- Expiry is inclusive: at its instant an allowance has expired. -/
def allowanceIsExpired (expiresAt : Option Nat) (now : Nat) : Bool :=
  match expiresAt with
  | some exp => now ≥ exp
  | none => false

/-- What is spendable at `now`. -/
def effectiveAllowance (record : AllowanceRecord) (now : Nat) : Nat :=
  if allowanceIsExpired record.expiresAt now then 0 else record.amount

inductive ApprovalLifetime where
  | alreadyExpired
  | effective (expiresAt : Nat)
  deriving DecidableEq, Repr

/-- The expiry an approval is stored with: as asked, within a day; a day if not asked. -/
def effectiveApprovalLifetime (expiresAt : Option Nat) (now : Nat) : ApprovalLifetime :=
  let cap := satAdd64 now maxApprovalTtlNs
  match expiresAt with
  | none => .effective cap
  | some exp => if exp ≤ now then .alreadyExpired else .effective (min exp cap)

/-- `ALLOWANCES` and `ALLOWANCES_BY_EXPIRY`. -/
abbrev Allowances : Type := Timed Bytes AllowanceRecord

/-- The one writer of an allowance: an unchanged expiry leaves the index alone. -/
def putAllowance (key : Bytes) (previousExpiresAt : Option Nat) (record : AllowanceRecord)
    (b : Allowances) : Allowances :=
  let byTime :=
    if previousExpiresAt ≠ record.expiresAt then
      let dropped := match previousExpiresAt with
        | some prev => b.byTime.erase ⟨prev, key⟩
        | none => b.byTime
      match record.expiresAt with
      | some exp => dropped.insert ⟨exp, key⟩ ()
      | none => dropped
    else b.byTime
  ⟨b.rows.insert key record, byTime⟩

/-- The one remover. -/
def removeAllowance (key : Bytes) (expiresAt : Option Nat) (b : Allowances) : Allowances :=
  ⟨b.rows.erase key, match expiresAt with
    | some exp => b.byTime.erase ⟨exp, key⟩
    | none => b.byTime⟩

/-- Everything strictly below `(now + 1, [])` has expired at `now`. -/
def expiryBound (now : Nat) : Option (TimeKey Bytes) :=
  if now + 1 ≤ u64Max then some ⟨now + 1, []⟩ else none

/-- Bounded reclamation: the expired prefix of the index, up to `cap` entries. -/
def pruneExpiredAllowances (now cap : Nat) (b : Allowances) : Allowances :=
  b.drop (b.due (expiryBound now) cap)

/-! ### What is seen of an allowance -/

/-- The row at a key, unless it has expired. -/
def liveAt (now : Nat) (b : Allowances) (key : Bytes) : Option AllowanceRecord :=
  (b.rows[key]?).filter fun r => !allowanceIsExpired r.expiresAt now

/-- The effective allowance of a pair. -/
def effectiveAt (now : Nat) (b : Allowances) (key : Bytes) : Nat :=
  (b.rows[key]?).elim 0 fun r => effectiveAllowance r now

theorem effectiveAt_eq (now : Nat) (b : Allowances) (key : Bytes) :
    effectiveAt now b key = (liveAt now b key).elim 0 AllowanceRecord.amount := by
  unfold effectiveAt liveAt effectiveAllowance
  cases b.rows[key]? with
  | none => rfl
  | some r => cases h : allowanceIsExpired r.expiresAt now <;> simp [Option.filter, h]

theorem expired_mono {expiresAt : Option Nat} {now later : Nat} (h : now ≤ later)
    (hexp : allowanceIsExpired expiresAt now = true) : allowanceIsExpired expiresAt later = true := by
  cases expiresAt with
  | none => nomatch hexp
  | some e =>
    simp only [allowanceIsExpired, ge_iff_le, decide_eq_true_eq] at hexp ⊢
    exact Nat.le_trans hexp h

/-- What is alive later was alive before. -/
theorem liveAt_later {now later : Nat} (h : now ≤ later) (b : Allowances) (key : Bytes) :
    liveAt later b key =
      (liveAt now b key).filter fun r => !allowanceIsExpired r.expiresAt later := by
  unfold liveAt
  cases b.rows[key]? with
  | none => rfl
  | some r =>
    cases hnow : allowanceIsExpired r.expiresAt now with
    | true => simp [Option.filter, hnow, expired_mono h hnow]
    | false => simp [Option.filter, hnow]

/-! ### The index -/

/-- The invariant of the allowances: the index is exact, and every row has an expiry, a
`u64`. -/
structure Kept (b : Allowances) : Prop where
  exact : b.Exact AllowanceRecord.expiresAt
  stated : ∀ (key : Bytes) (r : AllowanceRecord), b.rows[key]? = some r →
    ∃ e, r.expiresAt = some e ∧ e ≤ u64Max

theorem kept_empty : Kept Timed.empty := ⟨Timed.exact_empty, fun _ _ h => by simp [Timed.empty] at h⟩

/-- The expiry of the row at a key, as the writers are told it. -/
def previousExpiry (b : Allowances) (key : Bytes) : Option Nat :=
  (b.rows[key]?).bind AllowanceRecord.expiresAt

variable {b : Allowances} {key : Bytes} {e now cap : Nat}

theorem rows_put (b : Allowances) (key : Bytes) (prev : Option Nat) (record : AllowanceRecord) :
    (putAllowance key prev record b).rows = b.rows.insert key record := rfl

theorem rows_remove (b : Allowances) (key : Bytes) (prev : Option Nat) :
    (removeAllowance key prev b).rows = b.rows.erase key := rfl

theorem Kept.put (h : Kept b) {amount : Nat} (he : e ≤ u64Max) :
    Kept (putAllowance key (previousExpiry b key) ⟨amount, some e⟩ b) := by
  refine ⟨?_, fun a r hr => ?_⟩
  · unfold putAllowance previousExpiry
    cases hk : b.rows[key]? with
    | none =>
      simp only [Option.bind_none, ne_eq, reduceCtorEq, not_false_eq_true, if_true]
      exact h.exact.insert hk rfl
    | some r =>
      obtain ⟨e₀, he₀, -⟩ := h.stated key r hk
      simp only [Option.bind_some, he₀, ne_eq, Option.some.injEq]
      by_cases hsame : e₀ = e
      · simp only [hsame, not_true_eq_false, if_false]
        exact h.exact.update hk (by rw [he₀, hsame])
      · simp only [hsame, not_false_eq_true, if_true]
        exact h.exact.replace hk he₀ rfl
  · rw [rows_put, StableMap.get_insert] at hr
    split at hr
    · cases hr
      exact ⟨e, rfl, he⟩
    · exact h.stated a r hr

theorem Kept.remove (h : Kept b) : Kept (removeAllowance key (previousExpiry b key) b) := by
  refine ⟨?_, fun a r hr => ?_⟩
  · unfold removeAllowance previousExpiry
    cases hk : b.rows[key]? with
    | none =>
      have hgone : b.rows.erase key = b.rows := Std.ExtTreeMap.ext_getElem? fun a => by
        rw [StableMap.get_erase]
        split
        · next ha => rw [← ha, hk]
        · rfl
      simp only [Option.bind_none, hgone]
      exact h.exact
    | some r =>
      obtain ⟨e₀, he₀, -⟩ := h.stated key r hk
      simp only [Option.bind_some, he₀]
      exact h.exact.remove hk he₀
  · rw [rows_remove, StableMap.get_erase] at hr
    split at hr
    · cases hr
    · exact h.stated a r hr

/-! ### Reclamation -/

theorem not_lt_nil (k : Bytes) : compare k [] ≠ .lt := by
  cases k <;> simp [compare, List.compareLex_nil_nil, List.compareLex_cons_nil]

/-- An index entry is before the bound exactly when its row has expired. -/
theorem before_expiryBound_iff {a : TimeKey Bytes} (ha : a.time ≤ u64Max) (hnow : now ≤ u64Max) :
    (∀ u ∈ expiryBound now, compare a u = .lt) ↔ a.time ≤ now := by
  unfold expiryBound
  split
  · simp only [Option.mem_def, Option.some.injEq, forall_eq', TimeKey.lt_bound_iff not_lt_nil]
    exact Nat.lt_succ_iff
  · have : a.time ≤ now := by omega
    simp [this]

theorem Kept.entry_le (h : Kept b) {a : TimeKey Bytes} (ha : a ∈ b.byTime) : a.time ≤ u64Max := by
  obtain ⟨r, hr, ht⟩ := (h.exact a).1 ha
  obtain ⟨e, he, hle⟩ := h.stated a.key r hr
  rw [ht] at he
  exact Option.some.inj he ▸ hle

theorem Kept.prune (h : Kept b) : Kept (pruneExpiredAllowances now cap b) := by
  refine ⟨h.exact.drop fun a ha => Timed.mem_byTime_of_due ha, fun a r hr => ?_⟩
  unfold pruneExpiredAllowances at hr
  rw [Timed.rows_drop] at hr
  split at hr
  · nomatch hr
  · exact h.stated a r hr

/-- The rows that have expired at `now`. -/
def expiredRows (now : Nat) (b : Allowances) : List (Bytes × AllowanceRecord) :=
  b.rows.toList.filter fun r => allowanceIsExpired r.2.expiresAt now

theorem Kept.expiredRows_keys (h : Kept b) (hnow : now ≤ u64Max) :
    (expiredRows now b).map Prod.fst = b.expired AllowanceRecord.expiresAt (expiryBound now) := by
  unfold expiredRows Timed.expired
  congr 1
  refine List.filter_congr fun r hr => ?_
  obtain ⟨e, he, hle⟩ := h.stated r.1 r.2 (StableMap.mem_toList.1 hr)
  have hbound := before_expiryBound_iff (a := ⟨e, r.1⟩) hle hnow
  rw [he, Bool.eq_iff_iff]
  simp only [allowanceIsExpired, ge_iff_le, decide_eq_true_eq, Option.any_some]
  rw [← hbound]
  cases expiryBound now <;> simp

/-- A pruned row had expired. -/
theorem Kept.expired_of_due (h : Kept b) (hnow : now ≤ u64Max) {a : TimeKey Bytes}
    (ha : a ∈ b.due (expiryBound now) cap) :
    ∃ r, b.rows[a.key]? = some r ∧ r.expiresAt = some a.time ∧ a.time ≤ now := by
  have hin := Timed.mem_byTime_of_due ha
  obtain ⟨r, hr, ht⟩ := (h.exact a).1 hin
  exact ⟨r, hr, ht, (before_expiryBound_iff (h.entry_le hin) hnow).1 (Timed.before_of_due ha)⟩

/-- From `now` on, nobody can tell that reclamation ran. -/
theorem Kept.liveAt_prune (h : Kept b) (hnow : now ≤ u64Max) {later : Nat} (hlater : now ≤ later)
    (key : Bytes) : liveAt later (pruneExpiredAllowances now cap b) key = liveAt later b key := by
  unfold liveAt pruneExpiredAllowances
  rw [Timed.rows_drop]
  split
  · next hk =>
    obtain ⟨a, ha, rfl⟩ := List.mem_map.1 hk
    obtain ⟨r, hr, ht, hle⟩ := h.expired_of_due hnow ha
    have hexp : allowanceIsExpired r.expiresAt later = true := by
      simpa [ht, allowanceIsExpired] using Nat.le_trans hle hlater
    simp [Option.filter, hr, hexp]
  · rfl

end StshProtocol.Token
