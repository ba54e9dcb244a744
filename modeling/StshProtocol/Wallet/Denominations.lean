import StshProtocol.Foundation.Ladder
import Mathlib.Data.Nat.Digits.Defs
import Mathlib.Algebra.BigOperators.Group.Multiset.Basic

/-! The notes an amount is shielded in.

An amount is split greedily into notes of fixed denominations, and refused if they do not add up to
it or are too many. As every denomination is ten times the one below, nothing adds up where the
greedy split does not, and nothing is fewer notes (`decompose_exact`). -/
namespace StshProtocol.Wallet
open Foundation.Ladder

/-- An amount a note may have. -/
abbrev Denomination : Type := {d : Nat // 0 < d}

/-- `DENOMINATIONS`: from 1,000 STSH to 10,000,000, in base units. -/
def denominations : List Denomination :=
  [⟨1_000 * 100_000_000, by decide⟩, ⟨10_000 * 100_000_000, by decide⟩,
    ⟨100_000 * 100_000_000, by decide⟩, ⟨1_000_000 * 100_000_000, by decide⟩,
    ⟨10_000_000 * 100_000_000, by decide⟩]

def maxNotesPerOperation : Nat := 16

inductive DecomposeError where
  | notDecomposable (amountBaseUnits : Int)
  | tooManyNotes (count : Nat)
  deriving DecidableEq, Repr

def DecomposeError.message : DecomposeError → String
  | .notDecomposable amount => s!"Amount {amount} is not decomposable into fixed denominations"
  | .tooManyNotes count =>
    s!"This amount needs {count} fixed-denomination notes, which is more than the " ++
      s!"{maxNotesPerOperation} one shield may create. Split it into separate shields. " ++
      "(The limit is on the NUMBER of notes, not the amount — a larger round amount can need " ++
      "fewer notes than a smaller uneven one.)"

/-- The inner loop: notes of one denomination while the rest has room for one. -/
def pushWhile (denom : Denomination) (remaining : Int) (result : List Nat) : Int × List Nat :=
  if remaining ≥ denom.1 then pushWhile denom (remaining - denom.1) (result ++ [denom.1])
  else (remaining, result)
termination_by remaining.toNat
decreasing_by
  have _ := denom.2
  omega

/-- The outer loop. -/
def assignDenominations : List Denomination → Int → List Nat → Int × List Nat
  | [], remaining, result => (remaining, result)
  | denom :: rest, remaining, result =>
    let pushed := pushWhile denom remaining result
    assignDenominations rest pushed.1 pushed.2

def decomposeAmount (amountBaseUnits : Int) : Except DecomposeError (List Nat) :=
  let assigned := assignDenominations denominations.reverse amountBaseUnits []
  if assigned.1 ≠ 0 then .error (.notDecomposable amountBaseUnits)
  else if assigned.2.length > maxNotesPerOperation then .error (.tooManyNotes assigned.2.length)
  else .ok assigned.2

/-! ### The loops -/

theorem pushWhile_neg (denom : Denomination) {remaining : Int} (result : List Nat)
    (h : remaining < 0) : pushWhile denom remaining result = (remaining, result) := by
  rw [pushWhile, if_neg (by omega)]

theorem pushWhile_nat (denom : Denomination) (n : Nat) (result : List Nat) :
    pushWhile denom n result =
      (((n % denom.1 : Nat) : Int), result ++ List.replicate (n / denom.1) denom.1) := by
  have hpos := denom.2
  induction n using Nat.strong_induction_on generalizing result with
  | _ n ih =>
    rw [pushWhile]
    by_cases hroom : (n : Int) ≥ denom.1
    · have hle : denom.1 ≤ n := by omega
      have hless : (n : Int) - denom.1 = ((n - denom.1 : Nat) : Int) := by omega
      have hdiv : n / denom.1 = (n - denom.1) / denom.1 + 1 := Nat.div_eq_sub_div hpos hle
      rw [if_pos hroom, hless, ih _ (by omega), ← Nat.mod_eq_sub_mod hle, hdiv, List.replicate_succ,
        List.append_assoc, List.singleton_append]
    · have hlt : n < denom.1 := by omega
      rw [if_neg hroom, Nat.mod_eq_of_lt hlt, Nat.div_eq_of_lt hlt, List.replicate_zero,
        List.append_nil]

theorem assignDenominations_neg (ds : List Denomination) {remaining : Int} (result : List Nat)
    (h : remaining < 0) : assignDenominations ds remaining result = (remaining, result) := by
  induction ds with
  | nil => rfl
  | cons d ds ih => rw [assignDenominations, pushWhile_neg d result h, ih]

/-- The loops give the greedy change. -/
theorem assignDenominations_nat (ds : List Denomination) (n : Nat) (result : List Nat) :
    assignDenominations ds n result =
      (((rest (ds.map Subtype.val) n : Nat) : Int), result ++ change (ds.map Subtype.val) n) := by
  induction ds generalizing n result with
  | nil => rw [assignDenominations, List.map_nil, rest, change, List.append_nil]
  | cons d ds ih =>
    rw [assignDenominations, pushWhile_nat, ih, List.map_cons, rest, change, List.append_assoc]

/-! ### The ladder -/

/-- The denominations from the greatest down. -/
def ladder : List Nat := denominations.reverse.map Subtype.val

theorem ladder_isLadder : IsLadder ladder where
  pos := by decide
  divides := by decide

theorem ladder_sorted : ladder.Pairwise fun big small => small ≤ big := by decide

theorem mem_ladder {d : Nat} : d ∈ ladder ↔ d ∈ denominations.map Subtype.val := by
  rw [ladder, List.map_reverse, List.mem_reverse]

theorem decomposeAmount_neg {amount : Int} (h : amount < 0) :
    decomposeAmount amount = .error (.notDecomposable amount) := by
  rw [decomposeAmount, assignDenominations_neg _ _ h]
  exact if_pos (by omega)

theorem decomposeAmount_nat (n : Nat) : decomposeAmount n =
    if rest ladder n ≠ 0 then .error (.notDecomposable n)
    else if (change ladder n).length > maxNotesPerOperation then
      .error (.tooManyNotes (change ladder n).length)
    else .ok (change ladder n) := by
  rw [decomposeAmount, assignDenominations_nat, List.nil_append, ladder]
  simp only [ne_eq, Nat.cast_eq_zero]

/-- `1,000 STSH`, the least denomination. -/
def thousandStsh : Nat := 1_000 * 100_000_000

theorem rest_ladder (n : Nat) : rest ladder n = n % thousandStsh := by
  have hladder : ladder = [10_000 * thousandStsh, 1_000 * thousandStsh, 100 * thousandStsh,
      10 * thousandStsh, thousandStsh] := by decide
  have hpos : 0 < thousandStsh := by decide
  rw [hladder]
  simp only [rest]
  rw [Nat.mod_mod_of_dvd _ (Nat.dvd_mul_left _ _)]
  rw [Nat.mod_mod_of_dvd _ (Nat.dvd_mul_left _ _)]
  rw [Nat.mod_mod_of_dvd _ (Nat.dvd_mul_left _ _)]
  rw [Nat.mod_mod_of_dvd _ (Nat.dvd_mul_left _ _)]

theorem digits_sum_step (x : Nat) : (Nat.digits 10 x).sum = x % 10 + (Nat.digits 10 (x / 10)).sum := by
  rcases Nat.eq_zero_or_pos x with rfl | hx
  · simp
  · rw [Nat.digits_def' (by omega) hx, List.sum_cons]

/-- The notes of a whole number of least denominations: those of the greatest, and one for each unit
of each digit below. -/
theorem change_ladder_length (k : Nat) : (change ladder (k * thousandStsh)).length =
    k / 10_000 + (Nat.digits 10 (k % 10_000)).sum := by
  have hladder : ladder = [10_000 * thousandStsh, 1_000 * thousandStsh, 100 * thousandStsh,
      10 * thousandStsh, 1 * thousandStsh] := by decide
  have hpos : 0 < thousandStsh := by decide
  have hstep : ∀ (d x : Nat) (ds : List Nat),
      (change (d * thousandStsh :: ds) (x * thousandStsh)).length =
        x / d + (change ds (x % d * thousandStsh)).length := by
    intro d x ds
    rw [change_cons_length, Nat.mul_div_mul_right _ _ hpos, Nat.mul_mod_mul_right]
  rw [hladder, hstep, hstep, hstep, hstep, hstep]
  rw [digits_sum_step, digits_sum_step, digits_sum_step, digits_sum_step]
  have hzero : (k % 10_000) / 10 / 10 / 10 / 10 = 0 := by omega
  rw [hzero, Nat.digits_zero]
  have hnil : (change [] (k % 10_000 % 1_000 % 100 % 10 % 1 * thousandStsh)).length = 0 := rfl
  rw [hnil, List.sum_nil]
  omega

/-! ### The split -/

/-- A split of an amount: notes of the denominations that add up to it. -/
def Splits (amount : Int) (notes : Multiset Nat) : Prop :=
  (∀ d ∈ notes, d ∈ denominations.map Subtype.val) ∧ (notes.sum : Int) = amount

/-- What any notes of the denominations add up to, the greedy split gives in full, with no more. -/
theorem splits_change {amount : Int} {notes : Multiset Nat} (h : Splits amount notes) :
    ∃ n : Nat, amount = n ∧ rest ladder n = 0 ∧ (change ladder n).length ≤ Multiset.card notes := by
  obtain ⟨hmem, rfl⟩ := h
  refine ⟨notes.sum, rfl, ?_⟩
  induction notes using Quotient.inductionOn with
  | h l =>
    have hl : ∀ d ∈ l, d ∈ ladder := fun d hd => mem_ladder.2 (hmem d hd)
    simp only [Multiset.quot_mk_to_coe, Multiset.sum_coe, Multiset.coe_card]
    exact ⟨rest_sum ladder_isLadder hl, change_least ladder_isLadder hl⟩

theorem change_splits {n : Nat} (h : rest ladder n = 0) : Splits n (change ladder n : List Nat) := by
  refine ⟨fun d hd => mem_ladder.1 (mem_of_change (Multiset.mem_coe.1 hd)), ?_⟩
  have hsum := change_sum ladder n
  rw [h, Nat.add_zero] at hsum
  rw [Multiset.sum_coe, hsum]

theorem decomposeAmount_ok_iff {amount : Int} {notes : List Nat} :
    decomposeAmount amount = .ok notes ↔ ∃ n : Nat, amount = n ∧ rest ladder n = 0 ∧
      (change ladder n).length ≤ maxNotesPerOperation ∧ notes = change ladder n := by
  constructor
  · intro h
    rcases Int.lt_or_le amount 0 with hneg | hnonneg
    · rw [decomposeAmount_neg hneg] at h
      exact nomatch h
    · obtain ⟨n, rfl⟩ := Int.eq_ofNat_of_zero_le hnonneg
      rw [decomposeAmount_nat] at h
      by_cases hrest : rest ladder n ≠ 0
      · rw [if_pos hrest] at h
        exact nomatch h
      by_cases hmany : (change ladder n).length > maxNotesPerOperation
      · rw [if_neg hrest, if_pos hmany] at h
        exact nomatch h
      rw [if_neg hrest, if_neg hmany] at h
      exact ⟨n, rfl, not_not.1 hrest, Nat.not_lt.1 hmany, (Except.ok.inj h).symm⟩
  · rintro ⟨n, rfl, hrest, hfew, rfl⟩
    rw [decomposeAmount_nat, if_neg (not_not.2 hrest), if_neg (Nat.not_lt.2 hfew)]

/-- The split of an amount is given just if it is a whole number of thousands of STSH that at most
sixteen notes add up to. It adds up to the amount, from the largest note down, no split has fewer
notes, and how many they are can be read off the amount. -/
theorem decompose_exact (amount : Int) :
    ((∃ notes, decomposeAmount amount = .ok notes) ↔
      (0 ≤ amount ∧ (thousandStsh : Int) ∣ amount) ∧
        ∃ notes, Splits amount notes ∧ Multiset.card notes ≤ 16) ∧
    ∀ notes, decomposeAmount amount = .ok notes →
      (notes.sum : Int) = amount ∧ (notes.Pairwise fun big small => small ≤ big) ∧
      (∀ d ∈ notes, d ∈ denominations.map Subtype.val) ∧
      (∀ other, Splits amount other → notes.length ≤ Multiset.card other) ∧
      notes.length = (amount / thousandStsh).toNat / 10_000 +
        (Nat.digits 10 ((amount / thousandStsh).toNat % 10_000)).sum := by
  constructor
  · constructor
    · rintro ⟨notes, h⟩
      obtain ⟨n, rfl, hrest, hfew, -⟩ := decomposeAmount_ok_iff.1 h
      refine ⟨⟨Int.natCast_nonneg n, ?_⟩, _, change_splits hrest, hfew⟩
      rw [rest_ladder] at hrest
      exact Int.natCast_dvd_natCast.2 (Nat.dvd_of_mod_eq_zero hrest)
    · rintro ⟨-, notes, hsplits, hfew⟩
      obtain ⟨n, rfl, hrest, hleast⟩ := splits_change hsplits
      exact ⟨_, decomposeAmount_ok_iff.2 ⟨n, rfl, hrest, Nat.le_trans hleast hfew, rfl⟩⟩
  · intro notes h
    obtain ⟨n, rfl, hrest, -, rfl⟩ := decomposeAmount_ok_iff.1 h
    obtain ⟨hmem, hsum⟩ := change_splits hrest
    refine ⟨?_, change_sorted ladder_sorted n, fun d hd => hmem d (Multiset.mem_coe.2 hd),
      fun other hother => ?_, ?_⟩
    · rw [← hsum, Multiset.sum_coe]
    · obtain ⟨n', hn', -, hleast⟩ := splits_change hother
      obtain rfl := Int.ofNat_inj.1 hn'
      exact hleast
    · rw [rest_ladder] at hrest
      obtain ⟨k, rfl⟩ := Nat.dvd_of_mod_eq_zero hrest
      have hk : ((thousandStsh * k : Nat) : Int) / (thousandStsh : Nat) = (k : Nat) := by
        rw [← Int.natCast_ediv, Nat.mul_div_cancel_left k (by decide)]
      rw [hk, Int.toNat_natCast, Nat.mul_comm]
      exact change_ladder_length k

/-- As the ladder's documentation has it: 16,000 STSH are seven notes. -/
example : (change ladder (16 * thousandStsh)).length = 7 := by decide

end StshProtocol.Wallet
