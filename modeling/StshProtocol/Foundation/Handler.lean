import Mathlib.Algebra.Order.Ring.Int
import Mathlib.Tactic.Common

/-! Messages that do not await.

A handler reads and writes the state of its canister and ends in one of three ways.
It traps, and the message is rolled back; it answers; or it answers with an error,
and what it has written until then is committed all the same. A handler is taken
apart at its binds (`bind_ok_iff`); that an error leaves the state alone is read off
its shape (`Atomic`): it only reads up to its last check and cannot fail after. Where
two messages start from states that differ in what a handler does not look at
(`Ignores`), they are compared step by step (`Agree`). -/
namespace StshProtocol.Foundation

/-- A handler over the state `σ`, which traps with a `τ` or answers an `α` or an `ε`. -/
abbrev Handler (τ σ ε α : Type) : Type := ExceptT ε (StateT σ (Except τ)) α

namespace Handler

variable {τ σ ε α β : Type}

/-- One message. -/
def exec (x : Handler τ σ ε α) (s : σ) : Except τ (Except ε α × σ) := x.run.run s

def read (f : σ → α) : Handler τ σ ε α := fun s => .ok (.ok (f s), s)

def write (f : σ → σ) : Handler τ σ ε Unit := fun s => .ok (.ok (), f s)

def fail (e : ε) : Handler τ σ ε α := fun s => .ok (.error e, s)

def trap (t : τ) : Handler τ σ ε α := fun _ => .error t

/-- `return Err(e)` unless `p`. -/
def demand (p : Prop) [Decidable p] (e : ε) : Handler τ σ ε Unit :=
  if p then pure () else fail e

/-- `ok_or(e)?`. -/
def need (o : Option α) (e : ε) : Handler τ σ ε α :=
  match o with
  | some a => pure a
  | none => fail e

/-- An error that is present is answered. -/
def refuseSome (o : Option ε) : Handler τ σ ε Unit :=
  match o with
  | some e => fail e
  | none => pure ()

/-- What a pure function answers, passed on. -/
def lift (r : Except ε α) : Handler τ σ ε α :=
  match r with
  | .ok a => pure a
  | .error e => fail e

/-- `assert!(p)`, or arithmetic that must not overflow. -/
def assert (p : Prop) [Decidable p] (t : τ) : Handler τ σ ε Unit :=
  if p then pure () else trap t

/-- `expect`. -/
def expect (o : Option α) (t : τ) : Handler τ σ ε α :=
  match o with
  | some a => pure a
  | none => trap t

/-! ### Taking a handler apart -/

section Inversion
variable {x : Handler τ σ ε α} {s t : σ} {a : α} {e : ε}

theorem exec_pure : (pure a : Handler τ σ ε α).exec s = .ok (.ok a, s) := rfl

theorem exec_read (f : σ → α) : (read f : Handler τ σ ε α).exec s = .ok (.ok (f s), s) := rfl

theorem exec_write (f : σ → σ) : (write f : Handler τ σ ε Unit).exec s = .ok (.ok (), f s) := rfl

theorem exec_fail : (fail e : Handler τ σ ε α).exec s = .ok (.error e, s) := rfl

theorem exec_trap (r : τ) : (trap r : Handler τ σ ε α).exec s = .error r := rfl

theorem exec_bind (x : Handler τ σ ε α) (f : α → Handler τ σ ε β) (s : σ) :
    (x >>= f).exec s = x.exec s >>= fun p =>
      match p.1 with
      | .ok a => (f a).exec p.2
      | .error e => .ok (.error e, p.2) := by
  have hx : x.exec s = x s := rfl
  show ExceptT.bind x f s = _
  simp only [ExceptT.bind, ExceptT.mk, bind, StateT.bind, ExceptT.bindCont, hx]
  cases x s with
  | error r => rfl
  | ok p =>
    obtain ⟨r, u⟩ := p
    cases r <;> rfl

theorem exec_demand {p : Prop} [Decidable p] (h : p) :
    (demand p e : Handler τ σ ε Unit).exec s = .ok (.ok (), s) := by
  rw [demand, if_pos h]
  rfl

theorem demand_refuses {p : Prop} [Decidable p] (h : ¬p) :
    (demand p e : Handler τ σ ε Unit).exec s = .ok (.error e, s) := by
  rw [demand, if_neg h]
  rfl

theorem exec_need {o : Option α} (h : o = some a) :
    (need o e : Handler τ σ ε α).exec s = .ok (.ok a, s) := by
  rw [h]
  rfl

theorem exec_lift {r : Except ε α} (h : r = .ok a) :
    (lift r : Handler τ σ ε α).exec s = .ok (.ok a, s) := by
  rw [h]
  rfl

/-- A step that answers is passed; one that does not ends the handler. -/
theorem exec_bind_ok {f : α → Handler τ σ ε β} {u : σ} (h : x.exec s = .ok (.ok a, u)) :
    (x >>= f).exec s = (f a).exec u := by
  rw [exec_bind, h]
  rfl

theorem exec_bind_error {f : α → Handler τ σ ε β} {u : σ} (h : x.exec s = .ok (.error e, u)) :
    (x >>= f).exec s = .ok (.error e, u) := by
  rw [exec_bind, h]
  rfl

theorem exec_bind_trap {f : α → Handler τ σ ε β} {r : τ} (h : x.exec s = .error r) :
    (x >>= f).exec s = .error r := by
  rw [exec_bind, h]
  rfl

theorem bind_ok_iff {f : α → Handler τ σ ε β} {b : β} :
    (x >>= f).exec s = .ok (.ok b, t) ↔
      ∃ a u, x.exec s = .ok (.ok a, u) ∧ (f a).exec u = .ok (.ok b, t) := by
  rw [exec_bind]
  cases x.exec s with
  | error r => simp [bind, Except.bind]
  | ok p =>
    obtain ⟨r, u⟩ := p
    cases r <;> simp [bind, Except.bind]

theorem pure_ok_iff {b : α} :
    (pure a : Handler τ σ ε α).exec s = .ok (.ok b, t) ↔ b = a ∧ t = s := by
  simp [exec_pure, eq_comm]

theorem read_ok_iff {f : σ → α} :
    (read f : Handler τ σ ε α).exec s = .ok (.ok a, t) ↔ a = f s ∧ t = s := by
  simp [exec_read, eq_comm]

theorem write_ok_iff {f : σ → σ} {u : Unit} :
    (write f : Handler τ σ ε Unit).exec s = .ok (.ok u, t) ↔ t = f s := by
  simp [exec_write, eq_comm]

theorem demand_ok_iff {p : Prop} [Decidable p] {u : Unit} :
    (demand p e : Handler τ σ ε Unit).exec s = .ok (.ok u, t) ↔ p ∧ t = s := by
  unfold demand
  split <;> simp [exec_pure, exec_fail, *, eq_comm]

theorem need_ok_iff {o : Option α} :
    (need o e : Handler τ σ ε α).exec s = .ok (.ok a, t) ↔ o = some a ∧ t = s := by
  unfold need
  split <;> simp [exec_pure, exec_fail, eq_comm]

theorem refuseSome_ok_iff {o : Option ε} {u : Unit} :
    (refuseSome o : Handler τ σ ε Unit).exec s = .ok (.ok u, t) ↔ o = none ∧ t = s := by
  unfold refuseSome
  split <;> simp [exec_pure, exec_fail, eq_comm]

theorem lift_ok_iff {r : Except ε α} :
    (lift r : Handler τ σ ε α).exec s = .ok (.ok a, t) ↔ r = .ok a ∧ t = s := by
  unfold lift
  split <;> simp [exec_pure, exec_fail, eq_comm]

theorem assert_ok_iff {p : Prop} [Decidable p] {r : τ} {u : Unit} :
    (assert p r : Handler τ σ ε Unit).exec s = .ok (.ok u, t) ↔ p ∧ t = s := by
  unfold assert
  split <;> simp [exec_pure, exec_trap, *, eq_comm]

theorem expect_ok_iff {o : Option α} {r : τ} :
    (expect o r : Handler τ σ ε α).exec s = .ok (.ok a, t) ↔ o = some a ∧ t = s := by
  unfold expect
  split <;> simp [exec_pure, exec_trap, eq_comm]

end Inversion

/-! ### Where a handler traps -/

section Traps
variable {x : Handler τ σ ε α} {s : σ} {r q : τ}

theorem bind_trap_iff {f : α → Handler τ σ ε β} :
    (x >>= f).exec s = .error r ↔
      x.exec s = .error r ∨ ∃ a u, x.exec s = .ok (.ok a, u) ∧ (f a).exec u = .error r := by
  rw [exec_bind]
  cases x.exec s with
  | error q => simp [bind, Except.bind]
  | ok p =>
    obtain ⟨r, u⟩ := p
    cases r <;> simp [bind, Except.bind]

theorem pure_no_trap {a : α} : (pure a : Handler τ σ ε α).exec s ≠ .error r := nofun

theorem read_no_trap {f : σ → α} : (read f : Handler τ σ ε α).exec s ≠ .error r := nofun

theorem write_no_trap {f : σ → σ} : (write f : Handler τ σ ε Unit).exec s ≠ .error r := nofun

theorem fail_no_trap {e : ε} : (fail e : Handler τ σ ε α).exec s ≠ .error r := nofun

theorem trap_trap_iff : (trap q : Handler τ σ ε α).exec s = .error r ↔ r = q := by
  simp [exec_trap, eq_comm]

theorem demand_no_trap {p : Prop} [Decidable p] {e : ε} :
    (demand p e : Handler τ σ ε Unit).exec s ≠ .error r := by
  unfold demand
  split
  · exact pure_no_trap
  · exact fail_no_trap

theorem need_no_trap {o : Option α} {e : ε} :
    (need o e : Handler τ σ ε α).exec s ≠ .error r := by
  cases o with
  | none => exact fail_no_trap
  | some a => exact pure_no_trap

theorem refuseSome_no_trap {o : Option ε} :
    (refuseSome o : Handler τ σ ε Unit).exec s ≠ .error r := by
  cases o with
  | none => exact pure_no_trap
  | some e => exact fail_no_trap

theorem lift_no_trap {a : Except ε α} : (lift a : Handler τ σ ε α).exec s ≠ .error r := by
  cases a with
  | error e => exact fail_no_trap
  | ok a => exact pure_no_trap

theorem assert_trap_iff {p : Prop} [Decidable p] :
    (assert p q : Handler τ σ ε Unit).exec s = .error r ↔ ¬p ∧ r = q := by
  unfold assert
  split <;> simp [exec_pure, exec_trap, *, eq_comm]

theorem expect_trap_iff {o : Option α} :
    (expect o q : Handler τ σ ε α).exec s = .error r ↔ o = none ∧ r = q := by
  unfold expect
  split <;> simp [exec_pure, exec_trap, eq_comm]

end Traps

/-! ### Errors that leave the state alone -/

/-- The handler writes nothing. -/
def ReadOnly (x : Handler τ σ ε α) : Prop := ∀ s r t, x.exec s = .ok (r, t) → t = s

/-- The handler answers no error. -/
def Sure (x : Handler τ σ ε α) : Prop := ∀ s e t, x.exec s ≠ .ok (.error e, t)

/-- Where the handler answers an error, it has written nothing. -/
def Atomic (x : Handler τ σ ε α) : Prop := ∀ s e t, x.exec s = .ok (.error e, t) → t = s

section Atomic
variable {x : Handler τ σ ε α} {f : α → Handler τ σ ε β}

theorem bind_error {s t : σ} {e : ε} (h : (x >>= f).exec s = .ok (.error e, t)) :
    x.exec s = .ok (.error e, t) ∨
      ∃ a u, x.exec s = .ok (.ok a, u) ∧ (f a).exec u = .ok (.error e, t) := by
  rw [exec_bind] at h
  cases hx : x.exec s with
  | error r => simp [hx, bind, Except.bind] at h
  | ok p =>
    obtain ⟨r, u⟩ := p
    rw [hx] at h
    cases r with
    | error e' => exact .inl (by simpa [bind, Except.bind] using h)
    | ok a => exact .inr ⟨a, u, rfl, by simpa [bind, Except.bind] using h⟩

theorem ReadOnly.atomic (hx : x.ReadOnly) : x.Atomic := fun s e t h => hx s (.error e) t h

theorem Sure.atomic (hx : x.Sure) : x.Atomic := fun s e t h => absurd h (hx s e t)

/-- A handler that only reads may be followed by one that is atomic. -/
theorem ReadOnly.bind_atomic (hx : x.ReadOnly) (hf : ∀ a, (f a).Atomic) : (x >>= f).Atomic := by
  intro s e t h
  rcases bind_error h with h | ⟨a, u, hu, h⟩
  · exact hx s _ t h
  · rw [hf a u e t h, hx s _ u hu]

/-- Once a handler can no longer fail it may write. -/
theorem Sure.bind (hx : x.Sure) (hf : ∀ a, (f a).Sure) : (x >>= f).Sure := by
  intro s e t h
  rcases bind_error h with h | ⟨a, u, -, h⟩
  · exact hx s e t h
  · exact hf a u e t h

theorem ReadOnly.bind (hx : x.ReadOnly) (hf : ∀ a, (f a).ReadOnly) : (x >>= f).ReadOnly := by
  intro s r t h
  cases r with
  | error e =>
    rcases bind_error h with h | ⟨a, u, hu, h⟩
    · exact hx s _ t h
    · rw [hf a u _ t h, hx s _ u hu]
  | ok b =>
    obtain ⟨a, u, hu, h⟩ := bind_ok_iff.1 h
    rw [hf a u _ t h, hx s _ u hu]

/-- A step that only reads answers its error, or is passed. -/
theorem ReadOnly.bind_ends (hx : x.ReadOnly) {s t : σ} {r : Except ε β}
    (h : (x >>= f).exec s = .ok (r, t)) :
    (t = s ∧ ∃ e, r = .error e) ∨ ∃ a, x.exec s = .ok (.ok a, s) ∧ (f a).exec s = .ok (r, t) := by
  cases r with
  | error e =>
    rcases bind_error h with hfirst | ⟨a, u, hu, hrest⟩
    · exact .inl ⟨hx s _ t hfirst, e, rfl⟩
    · obtain rfl := hx s _ u hu
      exact .inr ⟨a, hu, hrest⟩
  | ok b =>
    obtain ⟨a, u, hu, hrest⟩ := bind_ok_iff.1 h
    obtain rfl := hx s _ u hu
    exact .inr ⟨a, hu, hrest⟩

theorem readOnly_pure (a : α) : (pure a : Handler τ σ ε α).ReadOnly := fun _ _ _ h => by
  cases h
  rfl

theorem readOnly_read (g : σ → α) : (read g : Handler τ σ ε α).ReadOnly := fun _ _ _ h => by
  cases h
  rfl

theorem readOnly_fail (e : ε) : (fail e : Handler τ σ ε α).ReadOnly := fun _ _ _ h => by
  cases h
  rfl

theorem readOnly_trap (r : τ) : (trap r : Handler τ σ ε α).ReadOnly := fun _ _ _ h => nomatch h

theorem readOnly_demand (p : Prop) [Decidable p] (e : ε) :
    (demand p e : Handler τ σ ε Unit).ReadOnly := by
  unfold demand
  split
  · exact readOnly_pure ()
  · exact readOnly_fail e

theorem readOnly_need (o : Option α) (e : ε) : (need o e : Handler τ σ ε α).ReadOnly := by
  cases o with
  | none => exact readOnly_fail e
  | some a => exact readOnly_pure a

theorem readOnly_refuseSome (o : Option ε) : (refuseSome o : Handler τ σ ε Unit).ReadOnly := by
  cases o with
  | none => exact readOnly_pure ()
  | some e => exact readOnly_fail e

theorem readOnly_lift (r : Except ε α) : (lift r : Handler τ σ ε α).ReadOnly := by
  cases r with
  | error e => exact readOnly_fail e
  | ok a => exact readOnly_pure a

theorem readOnly_assert (p : Prop) [Decidable p] (r : τ) :
    (assert p r : Handler τ σ ε Unit).ReadOnly := by
  unfold assert
  split
  · exact readOnly_pure ()
  · exact readOnly_trap r

theorem readOnly_expect (o : Option α) (r : τ) : (expect o r : Handler τ σ ε α).ReadOnly := by
  cases o with
  | none => exact readOnly_trap r
  | some a => exact readOnly_pure a

theorem sure_pure (a : α) : (pure a : Handler τ σ ε α).Sure := fun _ _ _ h => nomatch h

theorem sure_read (g : σ → α) : (read g : Handler τ σ ε α).Sure := fun _ _ _ h => nomatch h

theorem sure_write (g : σ → σ) : (write g : Handler τ σ ε Unit).Sure := fun _ _ _ h => nomatch h

theorem sure_trap (r : τ) : (trap r : Handler τ σ ε α).Sure := fun _ _ _ h => nomatch h

theorem sure_assert (p : Prop) [Decidable p] (r : τ) :
    (assert p r : Handler τ σ ε Unit).Sure := by
  unfold assert
  split
  · exact sure_pure ()
  · exact sure_trap r

theorem sure_expect (o : Option α) (r : τ) : (expect o r : Handler τ σ ε α).Sure := by
  cases o with
  | none => exact sure_trap r
  | some a => exact sure_pure a

end Atomic

/-! ### What a handler does not look at -/

/-- The handler takes no notice of the change `g` of the state: it ends the same way, and
the change is still there after. -/
def Ignores (g : σ → σ) (x : Handler τ σ ε α) : Prop :=
  ∀ s, x.exec (g s) = (x.exec s).map fun p => (p.1, g p.2)

section Ignores
variable {g : σ → σ} {x : Handler τ σ ε α}

theorem Ignores.bind {f : α → Handler τ σ ε β} (hx : Ignores g x) (hf : ∀ a, Ignores g (f a)) :
    Ignores g (x >>= f) := by
  intro s
  rw [exec_bind, exec_bind, hx s]
  match x.exec s with
  | .error r => rfl
  | .ok (.error e, t) => rfl
  | .ok (.ok a, t) => exact hf a t

theorem ignores_pure (a : α) : Ignores g (pure a : Handler τ σ ε α) := fun _ => rfl

theorem ignores_fail (e : ε) : Ignores g (fail e : Handler τ σ ε α) := fun _ => rfl

theorem ignores_trap (r : τ) : Ignores g (trap r : Handler τ σ ε α) := fun _ => rfl

theorem ignores_read {φ : σ → α} (h : ∀ s, φ (g s) = φ s) :
    Ignores g (read φ : Handler τ σ ε α) := fun s => by
  rw [exec_read, exec_read, h]
  rfl

/-- What is read may change, if what is done with it does not. -/
theorem ignores_read_bind {φ : σ → α} {f : α → Handler τ σ ε β}
    (h : ∀ s, f (φ (g s)) = f (φ s)) (hf : ∀ a, Ignores g (f a)) :
    Ignores g ((read φ : Handler τ σ ε α) >>= f) := fun s => by
  rw [exec_bind_ok (exec_read _), exec_bind_ok (exec_read _), h]
  exact hf _ s

theorem ignores_write {φ : σ → σ} (h : ∀ s, φ (g s) = g (φ s)) :
    Ignores g (write φ : Handler τ σ ε Unit) := fun s => by
  rw [exec_write, exec_write, h]
  rfl

theorem ignores_demand (p : Prop) [Decidable p] (e : ε) :
    Ignores g (demand p e : Handler τ σ ε Unit) := by
  unfold demand
  split
  · exact ignores_pure ()
  · exact ignores_fail e

theorem ignores_need (o : Option α) (e : ε) : Ignores g (need o e : Handler τ σ ε α) := by
  cases o with
  | none => exact ignores_fail e
  | some a => exact ignores_pure a

theorem ignores_refuseSome (o : Option ε) :
    Ignores g (refuseSome o : Handler τ σ ε Unit) := by
  cases o with
  | none => exact ignores_pure ()
  | some e => exact ignores_fail e

theorem ignores_lift (r : Except ε α) : Ignores g (lift r : Handler τ σ ε α) := by
  cases r with
  | error e => exact ignores_fail e
  | ok a => exact ignores_pure a

theorem ignores_assert (p : Prop) [Decidable p] (r : τ) :
    Ignores g (assert p r : Handler τ σ ε Unit) := by
  unfold assert
  split
  · exact ignores_pure ()
  · exact ignores_trap r

theorem ignores_expect (o : Option α) (r : τ) : Ignores g (expect o r : Handler τ σ ε α) := by
  cases o with
  | none => exact ignores_trap r
  | some a => exact ignores_pure a

end Ignores

/-! ### What a handler ends with

A handler is specified by what it ends with, given one view `π` of the state it started
from. Where it keeps to that view and answers none of the errors of interest it is `Quiet`,
and the view the rest of the handler starts from is the same. -/

/-- However the handler ends, `Q` holds of its view of the start, its answer and its state. -/
def Ends {π : Type} (view : σ → π) (Q : π → Except ε α → σ → Prop) (x : Handler τ σ ε α) : Prop :=
  ∀ s r t, x.exec s = .ok (r, t) → Q (view s) r t

/-- The view is kept, and an error is one of those expected. -/
def Quiet {π : Type} (view : σ → π) (E : ε → Prop) (x : Handler τ σ ε α) : Prop :=
  Ends view (fun v r t => view t = v ∧ ∀ e, r = .error e → E e) x

section Ends
variable {π : Type} {view : σ → π} {E : ε → Prop} {Q : π → Except ε α → σ → Prop}

theorem ends_pure {a : α} (h : ∀ s, Q (view s) (.ok a) s) :
    Ends view Q (pure a : Handler τ σ ε α) := fun s _ _ hx => by
  cases hx
  exact h s

theorem ends_fail {e : ε} (h : ∀ s, Q (view s) (.error e) s) :
    Ends view Q (fail e : Handler τ σ ε α) := fun s _ _ hx => by
  cases hx
  exact h s

/-- Only what is read from the view is known to what follows. -/
theorem ends_read_bind {φ : σ → β} {f : β → Handler τ σ ε α}
    (h : ∀ s, ∀ r t, (f (φ s)).exec s = .ok (r, t) → Q (view s) r t) :
    Ends view Q ((read φ : Handler τ σ ε β) >>= f) := fun s r t hx => by
  rw [exec_bind_ok (exec_read _)] at hx
  exact h s r t hx

/-- The two specifications are joined at the state between. -/
theorem Ends.bind {P : π → Except ε β → σ → Prop} {Q' : π → Except ε α → σ → Prop}
    {x : Handler τ σ ε β} {f : β → Handler τ σ ε α} (hx : Ends view P x)
    (hf : ∀ b, Ends view Q' (f b)) (he : ∀ v e t, P v (.error e) t → Q v (.error e) t)
    (hok : ∀ v b u r t, P v (.ok b) u → Q' (view u) r t → Q v r t) : Ends view Q (x >>= f) := by
  intro s r t h
  rw [exec_bind] at h
  match hr : x.exec s with
  | .error _ =>
    rw [hr] at h
    cases h
  | .ok (.error e, u) =>
    rw [hr] at h
    cases h
    exact he _ _ _ (hx s _ _ hr)
  | .ok (.ok b, u) =>
    rw [hr] at h
    exact hok _ _ _ _ _ (hx s _ _ hr) (hf b u r t h)

/-- A quiet handler hands its view on. -/
theorem Quiet.bind_ends {x : Handler τ σ ε β} {f : β → Handler τ σ ε α} (hx : Quiet view E x)
    (he : ∀ e t, E e → Q (view t) (.error e) t) (hf : ∀ b, Ends view Q (f b)) :
    Ends view Q (x >>= f) :=
  Ends.bind hx hf (fun _ e t h => h.1 ▸ he e t (h.2 e rfl)) fun _ _ _ _ _ h hq => h.1 ▸ hq

/-- A quiet handler at the head of a message ends it, or hands its view on to the rest. -/
theorem Quiet.peel {x : Handler τ σ ε β} {f : β → Handler τ σ ε α} (hx : Quiet view E x) {s t : σ}
    {r : Except ε α} (h : (x >>= f).exec s = .ok (r, t)) :
    ((∃ e, r = .error e) ∧ view t = view s) ∨
      ∃ b u, x.exec s = .ok (.ok b, u) ∧ view u = view s ∧ (f b).exec u = .ok (r, t) := by
  rw [exec_bind] at h
  match hr : x.exec s with
  | .error _ =>
    rw [hr] at h
    cases h
  | .ok (.error e, u) =>
    rw [hr] at h
    cases h
    exact .inl ⟨⟨e, rfl⟩, (hx s _ _ hr).1⟩
  | .ok (.ok b, u) =>
    rw [hr] at h
    exact .inr ⟨b, u, rfl, (hx s _ _ hr).1, h⟩

theorem Ends.mono {Q' : π → Except ε α → σ → Prop} {x : Handler τ σ ε α} (hx : Ends view Q x)
    (h : ∀ v r t, Q v r t → Q' v r t) : Ends view Q' x :=
  fun s r t hr => h _ _ _ (hx s r t hr)

theorem Quiet.bind {x : Handler τ σ ε β} {f : β → Handler τ σ ε α} (hx : Quiet view E x)
    (hf : ∀ b, Quiet view E (f b)) : Quiet view E (x >>= f) :=
  hx.bind_ends (fun e t he => ⟨rfl, fun _ h => by cases h; exact he⟩) hf

theorem quiet_pure (a : α) : Quiet view E (pure a : Handler τ σ ε α) :=
  ends_pure fun _ => ⟨rfl, nofun⟩

theorem quiet_read (φ : σ → α) : Quiet view E (read φ : Handler τ σ ε α) := fun s _ _ hx => by
  cases hx
  exact ⟨rfl, nofun⟩

theorem quiet_write {φ : σ → σ} (h : ∀ s, view (φ s) = view s) :
    Quiet view E (write φ : Handler τ σ ε Unit) := fun s _ _ hx => by
  cases hx
  exact ⟨h s, nofun⟩

theorem quiet_fail {e : ε} (h : E e) : Quiet view E (fail e : Handler τ σ ε α) :=
  ends_fail fun _ => ⟨rfl, fun _ he => by cases he; exact h⟩

theorem quiet_demand (p : Prop) [Decidable p] {e : ε} (h : E e) :
    Quiet view E (demand p e : Handler τ σ ε Unit) := by
  unfold demand
  split
  · exact quiet_pure ()
  · exact quiet_fail h

theorem quiet_need (o : Option α) {e : ε} (h : E e) :
    Quiet view E (need o e : Handler τ σ ε α) := by
  cases o with
  | none => exact quiet_fail h
  | some a => exact quiet_pure a

theorem quiet_assert (p : Prop) [Decidable p] (q : τ) :
    Quiet view E (assert p q : Handler τ σ ε Unit) := by
  unfold assert
  split
  · exact quiet_pure ()
  · exact fun _ _ _ h => nomatch h

theorem quiet_expect (o : Option α) (q : τ) : Quiet view E (expect o q : Handler τ σ ε α) := by
  cases o with
  | none => exact fun _ _ _ h => nomatch h
  | some a => exact quiet_pure a

theorem quiet_lift {r : Except ε α} (h : ∀ e, r = .error e → E e) :
    Quiet view E (lift r : Handler τ σ ε α) := by
  cases r with
  | error e => exact quiet_fail (h e rfl)
  | ok a => exact quiet_pure a

end Ends

/-! ### How far a handler goes

A handler stays within a relation of states if it leaves one so related to where it started,
however it ends; it refuses within it if it does so where it answers an error. -/

def Within (R : σ → σ → Prop) (x : Handler τ σ ε α) : Prop := ∀ s r t, x.exec s = .ok (r, t) → R s t

def RefusesWithin (R : σ → σ → Prop) (x : Handler τ σ ε α) : Prop :=
  ∀ s e t, x.exec s = .ok (.error e, t) → R s t

section Within
variable {R : σ → σ → Prop} {x : Handler τ σ ε α} {f : α → Handler τ σ ε β}

theorem Sure.refuses (hx : x.Sure) : RefusesWithin R x := fun s e t h => absurd h (hx s e t)

theorem ReadOnly.within (hx : x.ReadOnly) (hrefl : ∀ s, R s s) : Within R x :=
  fun s r t h => hx s r t h ▸ hrefl s

theorem Within.bind_refuses (htrans : ∀ s t u, R s t → R t u → R s u) (hx : Within R x)
    (hf : ∀ a, RefusesWithin R (f a)) : RefusesWithin R (x >>= f) := by
  intro s e t h
  rcases bind_error h with hfirst | ⟨a, u, hu, hrest⟩
  · exact hx s _ t hfirst
  · exact htrans s u t (hx s _ u hu) (hf a u e t hrest)

theorem ReadOnly.bind_refuses (hx : x.ReadOnly) (hrefl : ∀ s, R s s)
    (hf : ∀ a, RefusesWithin R (f a)) : RefusesWithin R (x >>= f) := by
  intro s e t h
  rcases bind_error h with hfirst | ⟨a, u, hu, hrest⟩
  · exact hx s _ t hfirst ▸ hrefl s
  · exact hf a s e t (hx s _ u hu ▸ hrest)

end Within

/-! ### What a handler keeps -/

/-- From a state that meets `P` the handler does not trap, and ends in one that does. -/
def Safe (P : σ → Prop) (x : Handler τ σ ε α) : Prop := ∀ s, P s → ∃ r t, x.exec s = .ok (r, t) ∧ P t

section Safe
variable {P : σ → Prop} {x : Handler τ σ ε α} {f : α → Handler τ σ ε β}

theorem Safe.bind (hx : Safe P x) (hf : ∀ a, Safe P (f a)) : Safe P (x >>= f) := by
  intro s hs
  obtain ⟨r, u, hu, hP⟩ := hx s hs
  rw [exec_bind, hu]
  cases r with
  | error e => exact ⟨_, _, rfl, hP⟩
  | ok a => exact hf a u hP

theorem safe_pure (a : α) : Safe P (pure a : Handler τ σ ε α) := fun s hs => ⟨_, s, rfl, hs⟩

theorem safe_fail (e : ε) : Safe P (fail e : Handler τ σ ε α) := fun s hs => ⟨_, s, rfl, hs⟩

theorem safe_read (g : σ → α) : Safe P (read g : Handler τ σ ε α) := fun s hs => ⟨_, s, rfl, hs⟩

theorem safe_write {g : σ → σ} (h : ∀ s, P s → P (g s)) : Safe P (write g : Handler τ σ ε Unit) :=
  fun s hs => ⟨_, g s, rfl, h s hs⟩

theorem safe_demand (p : Prop) [Decidable p] (e : ε) : Safe P (demand p e : Handler τ σ ε Unit) := by
  unfold demand
  split
  · exact safe_pure ()
  · exact safe_fail e

theorem safe_need (o : Option α) (e : ε) : Safe P (need o e : Handler τ σ ε α) := by
  cases o with
  | none => exact safe_fail e
  | some a => exact safe_pure a

theorem safe_lift (r : Except ε α) : Safe P (lift r : Handler τ σ ε α) := by
  cases r with
  | error e => exact safe_fail e
  | ok a => exact safe_pure a

end Safe

/-! ### Two messages side by side -/

/-- The two messages came to the same end, and left related states unless they trapped. -/
def Agree (R : σ → σ → Prop) (x y : Except τ (Except ε α × σ)) : Prop :=
  match x, y with
  | .error r, .error r' => r = r'
  | .ok (a, t), .ok (a', t') => a = a' ∧ R t t'
  | _, _ => False

section Agree
variable {R : σ → σ → Prop} {s s' : σ}

theorem agree_pure {a : α} (h : R s s') :
    Agree R ((pure a : Handler τ σ ε α).exec s) ((pure a : Handler τ σ ε α).exec s') := ⟨rfl, h⟩

/-- From states that differ by changes it ignores, a handler comes to the same end. -/
theorem Ignores.agree {x : Handler τ σ ε α} {g g' : σ → σ} (hx : Ignores g x) (hx' : Ignores g' x)
    (hR : ∀ u, R (g u) (g' u)) (t : σ) : Agree R (x.exec (g t)) (x.exec (g' t)) := by
  rw [hx t, hx' t]
  match x.exec t with
  | .error r => rfl
  | .ok (a, u) => exact ⟨rfl, hR u⟩

/-- The same at the head of a longer handler. -/
theorem Ignores.agree_bind {x : Handler τ σ ε α} {f f' : α → Handler τ σ ε β} {g g' : σ → σ}
    (hx : Ignores g x) (hx' : Ignores g' x) (hR : ∀ u, R (g u) (g' u)) {t : σ}
    (h : ∀ a u, x.exec t = .ok (.ok a, u) → Agree R ((f a).exec (g u)) ((f' a).exec (g' u))) :
    Agree R ((x >>= f).exec (g t)) ((x >>= f').exec (g' t)) := by
  rw [exec_bind, exec_bind, hx t, hx' t]
  match hr : x.exec t with
  | .error r => rfl
  | .ok (.error e, u) => exact ⟨rfl, hR u⟩
  | .ok (.ok a, u) => exact h a u hr

theorem agree_read_bind {φ : σ → α} {f f' : α → Handler τ σ ε β}
    (h : Agree R ((f (φ s)).exec s) ((f' (φ s')).exec s')) :
    Agree R (((read φ : Handler τ σ ε α) >>= f).exec s)
      (((read φ : Handler τ σ ε α) >>= f').exec s') := h

theorem agree_write_bind {φ φ' : σ → σ} {f f' : Unit → Handler τ σ ε β}
    (h : Agree R ((f ()).exec (φ s)) ((f' ()).exec (φ' s'))) :
    Agree R (((write φ : Handler τ σ ε Unit) >>= f).exec s)
      (((write φ' : Handler τ σ ε Unit) >>= f').exec s') := h

end Agree

end Handler
end StshProtocol.Foundation
