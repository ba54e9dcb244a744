import StshProtocol.Vesting.Runs

/-! The curve of a schedule.

What is vested is what can be claimed and what was claimed. It is nothing before the cliff, and then
a floor of the amount, in proportion to the time. The product of the amount and the time is
saturated, though, before it is divided: a schedule keeps its curve if and only if the whole product
is a `u128` (`curve_iff`), and one that is too large for that never vests its amount. -/
namespace StshProtocol.Vesting
open Foundation ShieldedPool

namespace VestingSchedule

/-- The linear part of the schedule. -/
def duration (s : VestingSchedule) : Nat := s.vestingEndNs - s.cliffEndNs

/-- The vested amount of a schedule of which this much was claimed. -/
def vestedWith (s : VestingSchedule) (claimed nowNs : Nat) : Nat :=
  {s with claimed := claimed}.claimableAt nowNs + claimed

/-- This much can have been claimed by a time. -/
def ClaimedBy (s : VestingSchedule) (claimed nowNs : Nat) : Prop :=
  ∃ earlier ≤ nowNs, claimed ≤ s.vestedAt earlier

/-- The curve that is promised. -/
structure Curve (s : VestingSchedule) : Prop where
  cliff : ∀ c t, s.ClaimedBy c t → t < s.cliffEndNs → s.vestedWith c t = 0
  linear : ∀ c t, s.ClaimedBy c t → s.cliffEndNs ≤ t → s.duration ≠ 0 →
    s.totalAmount * min (t - s.cliffEndNs) s.duration ≤ u128Max ∧
      s.vestedWith c t = s.totalAmount * min (t - s.cliffEndNs) s.duration / s.duration
  atOnce : ∀ c t, s.ClaimedBy c t → s.cliffEndNs ≤ t → s.duration = 0 →
    s.vestedWith c t = s.totalAmount
  mono : ∀ c t c' t', s.ClaimedBy c t → s.ClaimedBy c' t' → t ≤ t' →
    s.vestedWith c t ≤ s.vestedWith c' t'
  bounded : ∀ c t, s.ClaimedBy c t → s.vestedWith c t ≤ s.totalAmount
  whole : ∀ c t, s.ClaimedBy c t → s.vestingEndNs ≤ t → s.vestedWith c t = s.totalAmount

variable {s : VestingSchedule} {c t : Nat}

/-- Whatever was claimed, what is vested is a function of the time. -/
theorem vestedWith_eq (h : s.ClaimedBy c t) : s.vestedWith c t = s.vestedAt t := by
  obtain ⟨earlier, hle, hc⟩ := h
  have hmono := s.vestedAt_mono hle
  rw [vestedWith, claimableAt_eq, vestedAt_claimed]
  exact Nat.sub_add_cancel (Nat.le_trans hc hmono)

theorem vestedAt_linear (hcliff : s.cliffEndNs ≤ t) (hduration : s.duration ≠ 0) :
    s.vestedAt t = min (s.totalAmount * min (t - s.cliffEndNs) s.duration) u128Max / s.duration := by
  rw [vestedAt, if_neg (Nat.not_lt.2 hcliff), linearAt]
  exact if_neg hduration

theorem vestedAt_atOnce (hcliff : s.cliffEndNs ≤ t) (hduration : s.duration = 0) :
    s.vestedAt t = s.totalAmount := by
  rw [vestedAt, if_neg (Nat.not_lt.2 hcliff), linearAt]
  exact if_pos hduration

/-- The whole product fits. -/
def Fits (s : VestingSchedule) : Prop := s.totalAmount * s.duration ≤ u128Max

theorem Fits.product_le (h : s.Fits) (n : Nat) : s.totalAmount * min n s.duration ≤ u128Max :=
  Nat.le_trans (Nat.mul_le_mul_left _ (Nat.min_le_right _ _)) h

theorem curve_of_fits (h : s.Fits) (hends : s.cliffEndNs ≤ s.vestingEndNs) : s.Curve where
  cliff c t hc ht := by
    rw [vestedWith_eq hc, vestedAt, if_pos ht]
  linear c t hc ht hduration := by
    refine ⟨h.product_le _, ?_⟩
    rw [vestedWith_eq hc, vestedAt_linear ht hduration, Nat.min_eq_left (h.product_le _)]
  atOnce c t hc ht hduration := by
    rw [vestedWith_eq hc, vestedAt_atOnce ht hduration]
  mono c t c' t' hc hc' ht := by
    rw [vestedWith_eq hc, vestedWith_eq hc']
    exact s.vestedAt_mono ht
  bounded c t hc := by
    rw [vestedWith_eq hc]
    exact s.vestedAt_le_total t
  whole c t hc ht := by
    rw [vestedWith_eq hc]
    by_cases hduration : s.duration = 0
    · exact vestedAt_atOnce (Nat.le_trans hends ht) hduration
    · have helapsed : min (t - s.cliffEndNs) s.duration = s.duration :=
        Nat.min_eq_right (Nat.sub_le_sub_right ht _)
      rw [vestedAt_linear (Nat.le_trans hends ht) hduration, helapsed, Nat.min_eq_left h,
        Nat.mul_div_cancel _ (Nat.pos_of_ne_zero hduration)]

/-- A product that does not fit leaves some of the amount unvested for good. -/
theorem fits_of_whole (hends : s.cliffEndNs ≤ s.vestingEndNs)
    (h : s.vestedAt s.vestingEndNs = s.totalAmount) : s.Fits := by
  by_contra hlarge
  have hover : u128Max < s.totalAmount * s.duration := Nat.lt_of_not_le hlarge
  have hduration : s.duration ≠ 0 := by
    intro hzero
    rw [hzero, Nat.mul_zero] at hover
    exact absurd hover (Nat.not_lt_zero _)
  have helapsed : min (s.vestingEndNs - s.cliffEndNs) s.duration = s.duration := Nat.min_self _
  rw [vestedAt_linear hends hduration, helapsed, Nat.min_eq_right (Nat.le_of_lt hover)] at h
  have hlt : u128Max / s.duration < s.totalAmount :=
    (Nat.div_lt_iff_lt_mul (Nat.pos_of_ne_zero hduration)).2 hover
  exact absurd h (Nat.ne_of_lt hlt)

end VestingSchedule

open VestingSchedule

theorem checked64_ok {n m : Nat} {e : String} (h : checked64 n e = .ok m) : m = n := by
  unfold checked64 at h
  split at h
  · exact (Except.ok.inj h).symm
  · exact nomatch h

/-- The ends of a schedule that is built. -/
theorem buildSchedule_ok {now : Nat} {n : NewSchedule} {sch : VestingSchedule}
    (h : buildSchedule now n = .ok sch) : sch.totalAmount = n.totalAmount ∧
      sch.cliffEndNs ≤ sch.vestingEndNs ∧ sch.duration = n.linearMonths * nsPerMonth := by
  obtain ⟨cliffNs, -, h⟩ := bind_ok h
  obtain ⟨linearNs, hlinear, h⟩ := bind_ok h
  obtain ⟨cliffEndNs, -, h⟩ := bind_ok h
  obtain ⟨vestingEndNs, hend, h⟩ := bind_ok h
  cases h
  rw [checked64_ok hlinear] at hend
  rw [checked64_ok hend]
  exact ⟨rfl, Nat.le_add_right _ _, Nat.add_sub_cancel_left _ _⟩

/-- The schedule, if its end is a `u64`. -/
theorem buildSchedule_eq {now : Nat} {n : NewSchedule}
    (h : now + n.cliffMonths * nsPerMonth + n.linearMonths * nsPerMonth ≤ u64Max) :
    buildSchedule now n = .ok ⟨n.beneficiary, n.totalAmount, now + n.cliffMonths * nsPerMonth,
      now + n.cliffMonths * nsPerMonth + n.linearMonths * nsPerMonth, 0, now⟩ := by
  have hchecked : ∀ {m : Nat} (e : String), m ≤ u64Max → checked64 m e = .ok m := fun _ hm => if_pos hm
  refine bind_of_ok (hchecked _ (by omega)) (bind_of_ok (hchecked _ (by omega)) ?_)
  exact bind_of_ok (hchecked _ (by omega)) (bind_of_ok (hchecked _ h) rfl)

/-- Of the schedules of an accepted list, exactly those keep their curve whose amount, taken for every
nanosecond of the linear part, is a `u128`. -/
theorem curve_iff {D : Deployment} {schedules : List NewSchedule}
    (_ : validateInitSchedules D schedules = .ok ()) {now : Nat} {n : NewSchedule}
    (_ : n ∈ schedules) {sch : VestingSchedule} (h : buildSchedule now n = .ok sch) :
    sch.Curve ↔ n.totalAmount * (n.linearMonths * nsPerMonth) ≤ u128Max := by
  obtain ⟨htotal, hends, hduration⟩ := buildSchedule_ok h
  rw [← htotal, ← hduration]
  constructor
  · intro hcurve
    refine fits_of_whole hends ?_
    have hzero : sch.ClaimedBy 0 sch.vestingEndNs := ⟨_, Nat.le_refl _, Nat.zero_le _⟩
    rw [← vestedWith_eq hzero]
    exact hcurve.whole 0 _ hzero (Nat.le_refl _)
  · exact fun hfits => curve_of_fits hfits hends

/-- A year after a year's cliff. -/
def sampleSchedule : NewSchedule := ⟨sampleBeneficiary, 1000, 12, 12⟩

theorem curve_iff_year : ∃ sch, buildSchedule 0 sampleSchedule = .ok sch ∧ sch.Curve := by
  have hvalid : validateInitSchedules sampleDeployment [sampleSchedule] = .ok () := rfl
  have hbuild := @buildSchedule_eq 0 sampleSchedule (by decide)
  exact ⟨_, hbuild, (curve_iff hvalid List.mem_cons_self hbuild).2 (by decide)⟩

/-- Half of the largest amount, over a month. -/
def largeSchedule : NewSchedule := ⟨sampleBeneficiary, 2 ^ 127, 0, 1⟩

/-- The amount is accepted, and is not vested when the schedule ends. -/
theorem large_unvested : validateInitSchedules sampleDeployment [largeSchedule] = .ok () ∧
    ∃ sch, buildSchedule 0 largeSchedule = .ok sch ∧
      sch.claimableAt sch.vestingEndNs + sch.claimed ≠ sch.totalAmount := by
  refine ⟨rfl, _, buildSchedule_eq (by decide), ?_⟩
  decide

end StshProtocol.Vesting
