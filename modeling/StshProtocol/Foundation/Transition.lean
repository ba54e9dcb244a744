import Mathlib.Algebra.Order.Ring.Int
import Mathlib.Tactic.Common

/-! Labelled transition systems and their runs.

A property that code keeps only while nothing untoward happens is stated of the
runs whose every step meets a condition in the state it starts from, `RunIf`.
An invariant is proved once from its start and one step (`RunIf.invariant`), and
may use whatever was proved of the same runs before. -/
namespace StshProtocol.Foundation

/-- States and labelled steps between them. -/
structure System (σ α : Type) where
  init : σ → Prop
  step : σ → α → σ → Prop

namespace System
variable {σ α β : Type} {S : System σ α} {ok ok' : σ → α → Prop} {I : σ → Prop}

/-- The states reached by the runs all of whose steps meet `ok`. -/
inductive RunIf (S : System σ α) (ok : σ → α → Prop) : σ → Prop where
  | start {s : σ} (h : S.init s) : RunIf S ok s
  | step {s : σ} {a : α} {s' : σ} (run : RunIf S ok s) (hok : ok s a) (h : S.step s a s') :
      RunIf S ok s'

/-- The states reached by any run. -/
def Reachable (S : System σ α) : σ → Prop := S.RunIf fun _ _ => True

/-- An invariant holds at the start and is kept by every admitted step. -/
theorem RunIf.invariant (hinit : ∀ s, S.init s → I s)
    (hstep : ∀ s a s', S.RunIf ok s → I s → ok s a → S.step s a s' → I s') {s : σ}
    (run : S.RunIf ok s) : I s := by
  induction run with
  | start h => exact hinit _ h
  | step run hok h ih => exact hstep _ _ _ run ih hok h

theorem RunIf.mono (himp : ∀ s a, ok s a → ok' s a) {s : σ} (run : S.RunIf ok s) :
    S.RunIf ok' s := by
  induction run with
  | start h => exact .start h
  | step _ hok h ih => exact .step ih (himp _ _ hok) h

/-- A run of admitted steps, and what is noted of each, the latest first. -/
inductive Noted (S : System σ α) (ok : σ → α → Prop) (note : σ → α → List β) :
    σ → List β → Prop where
  | start {s : σ} (h : S.init s) : Noted S ok note s []
  | step {s : σ} {a : α} {s' : σ} {log : List β} (run : Noted S ok note s log) (hok : ok s a)
      (h : S.step s a s') : Noted S ok note s' (note s a ++ log)

/-- Every run has its notes. -/
theorem RunIf.noted {s : σ} (run : S.RunIf ok s) (note : σ → α → List β) :
    ∃ log, S.Noted ok note s log := by
  induction run with
  | start h => exact ⟨[], .start h⟩
  | step _ hok h ih =>
    obtain ⟨log, hlog⟩ := ih
    exact ⟨_, .step hlog hok h⟩

/-- What holds of a state and the notes at the start, and is kept by every admitted step. -/
theorem Noted.invariant {note : σ → α → List β} {I : σ → List β → Prop}
    (hinit : ∀ s, S.init s → I s [])
    (hstep : ∀ s a s' log, I s log → ok s a → S.step s a s' → I s' (note s a ++ log)) {s : σ}
    {log : List β} (run : S.Noted ok note s log) : I s log := by
  induction run with
  | start h => exact hinit _ h
  | step run hok h ih => exact hstep _ _ _ _ ih hok h

/-- The system started in this state. -/
def startedIn (S : System σ α) (s₀ : σ) : System σ α := ⟨fun s => s = s₀, S.step⟩

end System

end StshProtocol.Foundation
