import Mathlib.Algebra.Order.Ring.Int
import Mathlib.Data.List.Forall2
import Mathlib.Tactic.Common

/-! A list changed at the first element that meets a condition. -/
namespace StshProtocol.Foundation

variable {α β : Type} {p : α → Bool} {f : α → α} {l : List α} {a : α}

/-- The first element that meets `p`, changed by `f`; the others as they are. -/
def modifyFirst (p : α → Bool) (f : α → α) : List α → List α
  | [] => []
  | a :: l => if p a then f a :: l else a :: modifyFirst p f l

/-- Element by element, the change is one of the first element that meets `p`. -/
theorem forall₂_modifyFirst {R : α → α → Prop} (hrefl : ∀ a, R a a)
    (hf : ∀ a, l.find? p = some a → R a (f a)) : List.Forall₂ R l (modifyFirst p f l) := by
  induction l with
  | nil => exact .nil
  | cons a l ih =>
    rw [modifyFirst]
    by_cases hp : p a = true
    · rw [if_pos hp]
      exact .cons (hf a (List.find?_cons_of_pos hp)) (List.forall₂_same.2 fun b _ => hrefl b)
    · rw [if_neg hp]
      exact .cons (hrefl a) (ih fun b hb => hf b (by rwa [List.find?_cons_of_neg hp]))

/-- The element that is changed, as it is then. -/
theorem mem_modifyFirst (h : l.find? p = some a) : f a ∈ modifyFirst p f l := by
  induction l with
  | nil => exact nomatch h
  | cons b l ih =>
    rw [modifyFirst]
    by_cases hp : p b = true
    · rw [List.find?_cons_of_pos hp] at h
      obtain rfl := Option.some.inj h
      rw [if_pos hp]
      exact List.mem_cons_self
    · rw [List.find?_cons_of_neg hp] at h
      rw [if_neg hp]
      exact List.mem_cons_of_mem _ (ih h)

theorem forall₂_left {R : α → β → Prop} {l : List α} {l' : List β} (h : List.Forall₂ R l l')
    (ha : a ∈ l) : ∃ b ∈ l', R a b := by
  induction h with
  | nil => exact nomatch ha
  | cons hab _ ih =>
    rcases List.mem_cons.1 ha with rfl | ha
    · exact ⟨_, List.mem_cons_self, hab⟩
    · obtain ⟨b, hb, hr⟩ := ih ha
      exact ⟨b, List.mem_cons_of_mem _ hb, hr⟩

/-- What is kept element by element is kept of the list. -/
theorem map_eq_of_forall₂ {R : α → α → Prop} {l l' : List α} (key : α → β)
    (h : List.Forall₂ R l l') (hkey : ∀ a b, R a b → key b = key a) : l'.map key = l.map key := by
  induction h with
  | nil => rfl
  | cons hab _ ih => rw [List.map_cons, List.map_cons, ih, hkey _ _ hab]

end StshProtocol.Foundation
