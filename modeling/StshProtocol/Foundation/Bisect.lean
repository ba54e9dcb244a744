import Mathlib.Algebra.Order.Ring.Int
import Mathlib.Tactic.Common
import Mathlib.Order.Basic

/-! Bisection for the greatest integer of a range with a property that is lost on the way up. -/
namespace StshProtocol.Foundation.Bisect

/-- The middle, rounded to the upper end where it is positive. -/
def middle (lo hi : Int) : Int := (lo + hi + 1).tdiv 2

theorem middle_mem {lo hi : Int} (h : lo < hi) : lo < middle lo hi ∧ middle lo hi ≤ hi := by
  rw [middle, Int.tdiv_eq_ediv]
  by_cases hround : 0 ≤ lo + hi + 1 ∨ 2 ∣ lo + hi + 1
  · rw [if_pos hround]
    omega
  · rw [if_neg hround, show (2 : Int).sign = 1 from rfl]
    omega

/-- The greatest integer from `lo` to `hi` that fits, `lo` being taken to. -/
def greatest (fits : Int → Bool) (lo hi : Int) : Int :=
  if lo < hi then
    if fits (middle lo hi) then greatest fits (middle lo hi) hi
    else greatest fits lo (middle lo hi - 1)
  else lo
termination_by (hi - lo).toNat
decreasing_by
  all_goals
    have := middle_mem ‹lo < hi›
    omega

variable {fits : Int → Bool} {lo hi : Int}

/-- The range is not left. -/
theorem greatest_mem (h : lo ≤ hi) : lo ≤ greatest fits lo hi ∧ greatest fits lo hi ≤ hi := by
  fun_induction greatest fits lo hi with
  | case1 lo hi hlt hfits ih =>
    have hmiddle := middle_mem hlt
    have := ih hmiddle.2
    omega
  | case2 lo hi hlt hfits ih =>
    have hmiddle := middle_mem hlt
    have := ih (by omega)
    omega
  | case3 lo hi hge => exact ⟨Int.le_refl _, h⟩

/-- What is found fits. -/
theorem fits_greatest (hlo : fits lo = true) : fits (greatest fits lo hi) = true := by
  fun_induction greatest fits lo hi with
  | case1 lo hi hlt hfits ih => exact ih hfits
  | case2 lo hi hlt hfits ih => exact ih hlo
  | case3 lo hi hge => exact hlo

/-- Nothing greater fits. -/
theorem le_greatest (hdown : ∀ a b, a ≤ b → fits b = true → fits a = true) {p : Int}
    (hp : fits p = true) (hle : p ≤ hi) : p ≤ greatest fits lo hi := by
  fun_induction greatest fits lo hi with
  | case1 lo hi hlt hfits ih => exact ih hle
  | case2 lo hi hlt hfits ih =>
    have hbelow : p < middle lo hi := by
      by_contra hnot
      exact hfits (hdown _ _ (Int.not_lt.1 hnot) hp)
    exact ih (by omega)
  | case3 lo hi hge => omega

end StshProtocol.Foundation.Bisect
