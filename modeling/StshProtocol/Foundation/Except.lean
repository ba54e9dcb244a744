import Mathlib.Algebra.Order.Ring.Int
import Mathlib.Tactic.Common

/-! Taking a computation that may trap apart at its binds. -/
namespace StshProtocol.Foundation

variable {ε α β : Type}

theorem error_ne_ok {e : ε} {a : α} : (.error e : Except ε α) ≠ .ok a := nofun

/-- A bind that succeeds succeeds in both its parts. -/
theorem bind_ok {x : Except ε α} {f : α → Except ε β} {b : β} (h : x >>= f = .ok b) :
    ∃ a, x = .ok a ∧ f a = .ok b := by
  cases x with
  | error e => cases h
  | ok a => exact ⟨a, rfl, h⟩

theorem bind_of_ok {x : Except ε α} {f : α → Except ε β} {a : α} {b : β} (hx : x = .ok a)
    (hf : f a = .ok b) : x >>= f = .ok b := by
  rw [hx]
  exact hf

theorem bind_eq_ok_iff {x : Except ε α} {f : α → Except ε β} {b : β} :
    x >>= f = .ok b ↔ ∃ a, x = .ok a ∧ f a = .ok b :=
  ⟨bind_ok, fun ⟨_, hx, hf⟩ => bind_of_ok hx hf⟩

theorem map_ok {x : Except ε α} {f : α → β} {b : β} (h : x.map f = .ok b) :
    ∃ a, x = .ok a ∧ b = f a := by
  cases x with
  | error e => cases h
  | ok a => cases h; exact ⟨a, rfl, rfl⟩

theorem foldlM_cons_ok {f : β → α → Except ε β} {a : α} {as : List α} {s s' : β}
    (h : (a :: as).foldlM f s = .ok s') : ∃ t, f s a = .ok t ∧ as.foldlM f t = .ok s' := by
  rw [List.foldlM_cons] at h
  exact bind_ok h

theorem foldlM_pure_ok (f : β → α → β) (as : List α) (s : β) :
    as.foldlM (fun s a => Except.ok (ε := ε) (f s a)) s = .ok (as.foldl f s) := by
  induction as generalizing s with
  | nil => rfl
  | cons a as ih => exact ih (f s a)

/-- A loop of checks that passes has passed each. -/
theorem forM_ok {f : α → Except ε PUnit} {as : List α} {u : PUnit} (h : as.forM f = .ok u) (a : α)
    (ha : a ∈ as) : f a = .ok () := by
  induction as with
  | nil => exact nomatch ha
  | cons b bs ih =>
    rw [List.forM] at h
    obtain ⟨_, hb, hbs⟩ := bind_ok h
    rcases List.mem_cons.1 ha with rfl | ha
    · exact hb
    · exact ih hbs ha

/-- A bind that fails fails in one of its parts. -/
theorem bind_fails {x : Except ε α} {f : α → Except ε β} {e : ε} (h : x >>= f = .error e) :
    x = .error e ∨ ∃ a, x = .ok a ∧ f a = .error e := by
  cases x with
  | error e' => cases h; exact .inl rfl
  | ok a => exact .inr ⟨a, rfl, h⟩

/-- A loop of checks fails as one of them does. -/
theorem forM_fails {f : α → Except ε Unit} {as : List α} {e : ε} (h : as.forM f = .error e) :
    ∃ a, f a = .error e := by
  induction as with
  | nil => cases h
  | cons a as ih =>
    rw [List.forM] at h
    rcases bind_fails h with h | ⟨_, -, h⟩
    · exact ⟨a, h⟩
    · exact ih h

end StshProtocol.Foundation
