import StshProtocol.FeePolicy.Fees

/-! A fee split over the reserves adds up to the fee.

`splitProtocolFeeToReserves` leaves the plain sums and differences of the code as they are on
numbers. Here each of them is the one of a `u128` that overflows or not (`splitRun`), and none
does. -/
namespace StshProtocol.FeePolicy
open Foundation ShieldedPool

/-- The shares in force as the code computes them; nothing, if a `u128` overflows. -/
def splitSharesRun (p : GovernanceFeeParams) : Option (Nat × Nat × Nat) :=
  let ops := p.operationsSplitBps
  let ins := p.insuranceSplitBps
  let staking := p.stakingRewardsSplitBps
  if p.stakingRewardsEnabled then
    some (ops, ins, staking)
  else do
    let opsInsTotal ← checkedAdd128 ops ins
    if opsInsTotal = 0 then
      some (10000, 0, 0)
    else do
      let product ← checkedMul128 staking ops
      let extraOps := product / opsInsTotal
      let extraIns ← checkedSub staking extraOps
      let opsBps ← checkedAdd128 ops extraOps
      let insBps ← checkedAdd128 ins extraIns
      some (opsBps, insBps, 0)

/-- The remainder goes to operations; nothing, if a `u128` overflows. -/
def creditRun (feeAmount operations insurance staking : Nat) : Option ReserveSplit := do
  let partly ← checkedAdd128 operations insurance
  let allocated ← checkedAdd128 partly staking
  let remainder ← checkedSub feeAmount allocated
  let credited ← checkedAdd128 operations remainder
  some ⟨credited, insurance, staking⟩

/-- The split as the code computes it; nothing, if it traps on an overflow. -/
def splitRun (feeAmount : Nat) (p : GovernanceFeeParams) :
    Option (Except FeePolicyError ReserveSplit) :=
  match p.validateSplitBps with
  | .error e => some (.error e)
  | .ok () => do
    let (opsBps, insBps, stakingBps) ← splitSharesRun p
    match checkedMul128 feeAmount opsBps, checkedMul128 feeAmount insBps,
        (if stakingBps = 0 then some 0 else checkedMul128 feeAmount stakingBps) with
    | some ops, some ins, some staking =>
      (creditRun feeAmount (ops / 10000) (ins / 10000) (staking / 10000)).map .ok
    | _, _, _ => some (.error .arithmeticOverflow)

variable {p : GovernanceFeeParams} {feeAmount : Nat}

theorem checkedAdd128_eq {a b : Nat} (h : a + b ≤ u128Max) : checkedAdd128 a b = some (a + b) :=
  if_pos h

theorem checkedMul128_eq {a b : Nat} (h : a * b ≤ u128Max) : checkedMul128 a b = some (a * b) :=
  if_pos h

theorem checkedSub_eq {a b : Nat} (h : b ≤ a) : checkedSub a b = some (a - b) := if_pos h

/-! ### The shares in force -/

theorem redistributed_le {staking ops ins : Nat} : staking * ops / (ops + ins) ≤ staking := by
  refine Nat.div_le_of_le_mul ?_
  rw [Nat.mul_comm]
  exact Nat.mul_le_mul_right staking (Nat.le_add_right ops ins)

theorem splitSharesRun_eq
    (hsum : p.operationsSplitBps + p.insuranceSplitBps + p.stakingRewardsSplitBps = 10000) :
    splitSharesRun p = some (splitShares p) := by
  have hbound : 10000 * 10000 ≤ u128Max := by decide
  have hextra : p.stakingRewardsSplitBps * p.operationsSplitBps /
      (p.operationsSplitBps + p.insuranceSplitBps) ≤ p.stakingRewardsSplitBps := redistributed_le
  have hrest := Nat.sub_le p.stakingRewardsSplitBps (p.stakingRewardsSplitBps * p.operationsSplitBps /
    (p.operationsSplitBps + p.insuranceSplitBps))
  have hproduct : p.stakingRewardsSplitBps * p.operationsSplitBps ≤ 10000 * 10000 :=
    Nat.mul_le_mul (by omega) (by omega)
  unfold splitSharesRun splitShares
  cases p.stakingRewardsEnabled with
  | true => rfl
  | false =>
    simp only [Bool.false_eq_true, if_false, Option.bind_eq_bind]
    rw [checkedAdd128_eq (by omega), Option.bind_some]
    by_cases hzero : p.operationsSplitBps + p.insuranceSplitBps = 0
    · rw [if_pos hzero, if_pos hzero]
    · rw [if_neg hzero, if_neg hzero, checkedMul128_eq (Nat.le_trans hproduct hbound),
        Option.bind_some, checkedSub_eq hextra, Option.bind_some, checkedAdd128_eq (by omega),
        Option.bind_some, checkedAdd128_eq (by omega), Option.bind_some]

/-- The shares in force are the whole. -/
theorem splitShares_sum
    (hsum : p.operationsSplitBps + p.insuranceSplitBps + p.stakingRewardsSplitBps = 10000) :
    (splitShares p).1 + (splitShares p).2.1 + (splitShares p).2.2 = 10000 := by
  have hextra : p.stakingRewardsSplitBps * p.operationsSplitBps /
      (p.operationsSplitBps + p.insuranceSplitBps) ≤ p.stakingRewardsSplitBps := redistributed_le
  unfold splitShares
  cases p.stakingRewardsEnabled with
  | true => exact hsum
  | false =>
    by_cases hzero : p.operationsSplitBps + p.insuranceSplitBps = 0
    · simp only [Bool.false_eq_true, if_false, hzero, if_true]
    · simp only [Bool.false_eq_true, if_false, hzero]
      omega

theorem splitShares_disabled (h : p.stakingRewardsEnabled = false) : (splitShares p).2.2 = 0 := by
  rw [splitShares, h, if_neg Bool.false_ne_true]
  split <;> rfl

/-! ### The remainder -/

/-- Three floors of shares that are the whole are no more than the fee. -/
theorem floors_le {ops ins staking : Nat} (hsum : ops + ins + staking = 10000) :
    feeAmount * ops / 10000 + feeAmount * ins / 10000 + feeAmount * staking / 10000 ≤ feeAmount := by
  have htotal : feeAmount * ops + feeAmount * ins + feeAmount * staking = feeAmount * 10000 := by
    rw [← Nat.mul_add, ← Nat.mul_add, hsum]
  omega

theorem creditRun_eq {operations insurance staking : Nat} (hfee : feeAmount ≤ u128Max)
    (h : operations + insurance + staking ≤ feeAmount) :
    creditRun feeAmount operations insurance staking =
      some ⟨operations + (feeAmount - (operations + insurance + staking)), insurance, staking⟩ := by
  unfold creditRun
  simp only [Option.bind_eq_bind]
  rw [checkedAdd128_eq (by omega), Option.bind_some, checkedAdd128_eq (by omega), Option.bind_some,
    checkedSub_eq h, Option.bind_some, checkedAdd128_eq (by omega), Option.bind_some]

/-! ### The split -/

/-- A share of nothing needs no product. -/
theorem stakingProduct_eq {stakingBps : Nat} :
    (if stakingBps = 0 then some 0 else checkedMul128 feeAmount stakingBps) =
      checkedMul128 feeAmount stakingBps := by
  by_cases hzero : stakingBps = 0
  · rw [if_pos hzero, hzero, checkedMul128, Nat.mul_zero, if_pos (Nat.zero_le _)]
  · rw [if_neg hzero]

theorem validateSplitBps_error {e : FeePolicyError} (h : p.validateSplitBps = .error e) :
    p.operationsSplitBps + p.insuranceSplitBps + p.stakingRewardsSplitBps ≠ 10000 := by
  have hbound : 10000 ≤ u32Max := by decide
  intro hsum
  unfold GovernanceFeeParams.validateSplitBps at h
  rw [if_neg (by omega), if_neg (not_not_intro hsum)] at h
  exact nomatch h

/-- What the split of a fee comes to. -/
structure SplitConserves (feeAmount : Nat) (p : GovernanceFeeParams) : Prop where
  /-- No plain sum, product or difference of the code overflows. -/
  runs : splitRun feeAmount p = some (splitProtocolFeeToReserves feeAmount p)
  /-- It errs only for shares that are not the whole, or a product that is too large. -/
  errs : ∀ e, splitProtocolFeeToReserves feeAmount p = .error e →
    p.operationsSplitBps + p.insuranceSplitBps + p.stakingRewardsSplitBps ≠ 10000 ∨
      e = .arithmeticOverflow ∧ (u128Max < feeAmount * (splitShares p).1 ∨
        u128Max < feeAmount * (splitShares p).2.1 ∨ u128Max < feeAmount * (splitShares p).2.2)
  /-- Otherwise the reserves are the fee, and all but the first are floors of their shares. -/
  conserves : ∀ s, splitProtocolFeeToReserves feeAmount p = .ok s →
    s.operationsReserve + s.insuranceReserve + s.stakingRewardsReserve = feeAmount ∧
      (splitShares p).1 + (splitShares p).2.1 + (splitShares p).2.2 = 10000 ∧
      s.insuranceReserve = feeAmount * (splitShares p).2.1 / 10000 ∧
      s.stakingRewardsReserve = feeAmount * (splitShares p).2.2 / 10000 ∧
      (p.stakingRewardsEnabled = false → s.stakingRewardsReserve = 0)

/-- A split either is refused, or all three products are there and it is this. -/
theorem split_cases (hfee : feeAmount ≤ u128Max) :
    (∃ e, splitProtocolFeeToReserves feeAmount p = .error e ∧ splitRun feeAmount p = some (.error e) ∧
        (p.operationsSplitBps + p.insuranceSplitBps + p.stakingRewardsSplitBps ≠ 10000 ∨
          e = .arithmeticOverflow ∧ (u128Max < feeAmount * (splitShares p).1 ∨
            u128Max < feeAmount * (splitShares p).2.1 ∨ u128Max < feeAmount * (splitShares p).2.2))) ∨
      p.operationsSplitBps + p.insuranceSplitBps + p.stakingRewardsSplitBps = 10000 ∧
        ∃ s, splitProtocolFeeToReserves feeAmount p = .ok s ∧ splitRun feeAmount p = some (.ok s) ∧
          s.operationsReserve = feeAmount * (splitShares p).1 / 10000 +
            (feeAmount - (feeAmount * (splitShares p).1 / 10000 +
              feeAmount * (splitShares p).2.1 / 10000 + feeAmount * (splitShares p).2.2 / 10000)) ∧
          s.insuranceReserve = feeAmount * (splitShares p).2.1 / 10000 ∧
          s.stakingRewardsReserve = feeAmount * (splitShares p).2.2 / 10000 := by
  unfold splitProtocolFeeToReserves splitRun
  cases hvalid : p.validateSplitBps with
  | error e => exact .inl ⟨e, rfl, rfl, .inl (validateSplitBps_error hvalid)⟩
  | ok u =>
    have hsum := validateSplitBps_ok hvalid
    have hwhole := splitShares_sum hsum
    simp only [splitSharesRun_eq hsum, stakingProduct_eq, Option.bind_eq_bind, Option.bind_some]
    generalize splitShares p = shares at hwhole ⊢
    obtain ⟨ops, ins, staking⟩ := shares
    simp only [bind, Except.bind] at hwhole ⊢
    by_cases hops : feeAmount * ops ≤ u128Max
    · rw [checkedMul128_eq hops]
      by_cases hins : feeAmount * ins ≤ u128Max
      · rw [checkedMul128_eq hins]
        by_cases hstaking : feeAmount * staking ≤ u128Max
        · rw [checkedMul128_eq hstaking]
          refine .inr ⟨hsum, _, rfl, ?_, rfl, rfl, rfl⟩
          show (creditRun feeAmount _ _ _).map Except.ok = _
          rw [creditRun_eq hfee (floors_le hwhole), Option.map_some]
        · rw [checkedMul128, if_neg hstaking]
          exact .inl ⟨_, rfl, rfl, .inr ⟨rfl, .inr (.inr (Nat.lt_of_not_le hstaking))⟩⟩
      · rw [checkedMul128, if_neg hins]
        exact .inl ⟨_, rfl, rfl, .inr ⟨rfl, .inr (.inl (Nat.lt_of_not_le hins))⟩⟩
    · rw [checkedMul128, if_neg hops]
      exact .inl ⟨_, rfl, rfl, .inr ⟨rfl, .inl (Nat.lt_of_not_le hops)⟩⟩

/-- Every fee a `u128` holds is split without loss, for every choice of shares. -/
theorem fee_split_conserves (hfee : feeAmount ≤ u128Max) (p : GovernanceFeeParams) :
    SplitConserves feeAmount p := by
  rcases split_cases (p := p) hfee with ⟨e, he, hrun, hwhy⟩ | ⟨hsum, s, hs, hrun, hops, hins, hstaking⟩
  · refine ⟨by rw [hrun, he], fun e' he' => ?_, fun s hs => ?_⟩
    · rw [he] at he'
      exact Except.error.inj he' ▸ hwhy
    · rw [he] at hs
      exact nomatch hs
  · refine ⟨by rw [hrun, hs], fun e he => ?_, fun s' hs' => ?_⟩
    · rw [hs] at he
      exact nomatch he
    · obtain rfl := Except.ok.inj (hs.symm.trans hs')
      have hwhole := splitShares_sum hsum
      have hfloors : feeAmount * (splitShares p).1 / 10000 + feeAmount * (splitShares p).2.1 / 10000 +
          feeAmount * (splitShares p).2.2 / 10000 ≤ feeAmount := floors_le hwhole
      refine ⟨?_, hwhole, hins, hstaking, fun hoff => ?_⟩
      · rw [hops, hins, hstaking]
        omega
      · rw [hstaking, splitShares_disabled hoff, Nat.mul_zero, Nat.zero_div]

/-- The launch parameters and an odd fee. -/
theorem fee_split_conserves_launch : SplitConserves 10001 GovernanceFeeParams.launchDefaults :=
  fee_split_conserves (by decide) _

end StshProtocol.FeePolicy
