import StshProtocol.Foundation.Transition
import Mathlib.Logic.Function.Basic

/-! A canister among its callees.

A message runs without interruption until it ends or awaits a call: it comes to an
`Outcome`. Between two messages anything may happen: other messages of the same
canister run, time passes, the callees move, the canister is upgraded and forgets
every suspended call. The reply to a call is delivered at any later time, in any
order, or never. What a callee does with a request and which replies may come back
is a `Service`; whatever else may write the canister's state between two messages
is `others`. -/
namespace StshProtocol.Foundation

variable {σ ε ι κ χ ρ ω : Type}

/-- What a message comes to: an answer, an outgoing call with the locals the
continuation captures, or a trap, which rolls the message back. -/
inductive Outcome (σ κ χ ω : Type) where
  | reply (state : σ) (answer : ω)
  | call (state : σ) (cont : κ) (request : χ)
  | trap

namespace Outcome

/-- The state a message commits, if it does. -/
def state? : Outcome σ κ χ ω → Option σ
  | .reply s _ => some s
  | .call s _ _ => some s
  | .trap => none

end Outcome

/-- The code: how a message starts, how a suspended one resumes, what the guards of
a suspended one still do when its continuation traps, and the upgrade. -/
structure Canister (σ ι κ χ ρ ω : Type) where
  start : (now : Nat) → ι → σ → Outcome σ κ χ ω
  resume : (now : Nat) → κ → ρ → σ → Outcome σ κ χ ω
  cleanup : κ → σ → σ
  upgrade : (now : Nat) → σ → Option σ
  others : σ → σ → Prop

/-- The callees: how a request with this call number is taken up, what may be
answered to it, and how they move by themselves. -/
structure Service (ε χ ρ : Type) where
  accept : Nat → χ → ε → ε → Prop
  answer : Nat → ρ → ε → Prop
  move : ε → ε → Prop

/-- The canister, its callees, and its suspended messages by call number. -/
structure World (σ ε κ : Type) where
  now : Nat
  state : σ
  env : ε
  tasks : Nat → Option κ
  next : Nat

inductive Event (ι ρ : Type) where
  | call (input : ι)
  | reply (task : Nat) (answer : ρ)
  | upgrade
  | wait
  | elsewhere
  | others

namespace World

/-- The suspended message is taken off the list. -/
def finish (w : World σ ε κ) (t : Nat) : World σ ε κ :=
  {w with tasks := Function.update w.tasks t none}

/-- The message is suspended under the next call number. -/
def suspend (w : World σ ε κ) (s : σ) (k : κ) (e : ε) : World σ ε κ :=
  {w with state := s, env := e, tasks := Function.update w.tasks w.next (some k),
          next := w.next + 1}

theorem of_tasks_finish {w : World σ ε κ} {t u : Nat} {k : κ} (h : (w.finish t).tasks u = some k) :
    u ≠ t ∧ w.tasks u = some k := by
  change Function.update w.tasks t none u = some k at h
  by_cases hu : u = t
  · subst hu
    rw [Function.update_self] at h
    exact nomatch h
  · rw [Function.update_of_ne hu] at h
    exact ⟨hu, h⟩

theorem of_tasks_suspend {w : World σ ε κ} {s : σ} {k k' : κ} {e : ε} {u : Nat}
    (h : (w.suspend s k e).tasks u = some k') :
    (u = w.next ∧ k' = k) ∨ (u ≠ w.next ∧ w.tasks u = some k') := by
  change Function.update w.tasks w.next (some k) u = some k' at h
  by_cases hu : u = w.next
  · subst hu
    rw [Function.update_self] at h
    exact .inl ⟨rfl, (Option.some.inj h).symm⟩
  · rw [Function.update_of_ne hu] at h
    exact .inr ⟨hu, h⟩

end World

/-- Where a message that is not rolled back leaves the world. -/
inductive Lands (S : Service ε χ ρ) (w : World σ ε κ) : Outcome σ κ χ ω → World σ ε κ → Prop where
  | reply {s : σ} {a : ω} : Lands S w (.reply s a) {w with state := s}
  | call {s : σ} {k : κ} {q : χ} {e : ε} (h : S.accept w.next q w.env e) :
      Lands S w (.call s k q) (w.suspend s k e)

section Lands
variable {S : Service ε χ ρ} {w w' : World σ ε κ} {s : σ}

theorem Lands.of_reply {a : ω} (h : Lands S w (.reply s a) w') : w' = {w with state := s} := by
  cases h
  rfl

theorem Lands.of_call {k : κ} {q : χ} (h : Lands S w (.call s k q : Outcome σ κ χ ω) w') :
    ∃ e, S.accept w.next q w.env e ∧ w' = w.suspend s k e := by
  cases h with
  | call he => exact ⟨_, he, rfl⟩

theorem Lands.not_trap : ¬Lands S w (.trap : Outcome σ κ χ ω) w' := fun h => nomatch h

end Lands

namespace Canister

/-- One step of the world. -/
inductive Step (C : Canister σ ι κ χ ρ ω) (S : Service ε χ ρ) :
    World σ ε κ → Event ι ρ → World σ ε κ → Prop where
  | call {w w' : World σ ε κ} {i : ι} (h : Lands S w (C.start w.now i w.state) w') :
      Step C S w (.call i) w'
  | callTrap {w : World σ ε κ} {i : ι} (h : C.start w.now i w.state = .trap) :
      Step C S w (.call i) w
  | reply {w w' : World σ ε κ} {t : Nat} {k : κ} {r : ρ} (hk : w.tasks t = some k)
      (hr : S.answer t r w.env) (h : Lands S (w.finish t) (C.resume w.now k r w.state) w') :
      Step C S w (.reply t r) w'
  | replyTrap {w : World σ ε κ} {t : Nat} {k : κ} {r : ρ} (hk : w.tasks t = some k)
      (hr : S.answer t r w.env) (h : C.resume w.now k r w.state = .trap) :
      Step C S w (.reply t r) {w.finish t with state := C.cleanup k w.state}
  | upgrade {w : World σ ε κ} {s : σ} (h : C.upgrade w.now w.state = some s) :
      Step C S w .upgrade {w with state := s, tasks := fun _ => none}
  | wait {w : World σ ε κ} {n : Nat} (h : w.now ≤ n) : Step C S w .wait {w with now := n}
  | elsewhere {w : World σ ε κ} {e : ε} (h : S.move w.env e) :
      Step C S w .elsewhere {w with env := e}
  | others {w : World σ ε κ} {s : σ} (h : C.others w.state s) :
      Step C S w .others {w with state := s}

/-- The canister and its callees from the states `init` allows. -/
def system (C : Canister σ ι κ χ ρ ω) (S : Service ε χ ρ) (init : World σ ε κ → Prop) :
    System (World σ ε κ) (Event ι ρ) := ⟨init, C.Step S⟩

end Canister

/-! ### Played runs

A run on given inputs is played move by move: the callees' part is played by a
`Player`, whose every move is one the service allows. -/

/-- Somebody who plays the callees. -/
structure Player (S : Service ε χ ρ) (μ : Type) where
  take : Nat → χ → ε → ε
  take_ok : ∀ t q e, S.accept t q e (take t q e)
  answers : Nat → ρ → ε → Bool
  answers_ok : ∀ t r e, answers t r e = true → S.answer t r e
  play : μ → ε → Option ε
  play_ok : ∀ m e e', play m e = some e' → S.move e e'

inductive Move (ι ρ μ : Type) where
  | call (input : ι)
  | reply (task : Nat) (answer : ρ)
  | upgrade
  | wait (now : Nat)
  | elsewhere (move : μ)

/-- The event a move is. -/
def Move.event {μ : Type} : Move ι ρ μ → Event ι ρ
  | .call i => .call i
  | .reply t r => .reply t r
  | .upgrade => .upgrade
  | .wait _ => .wait
  | .elsewhere _ => .elsewhere

namespace Player
variable {μ : Type} {S : Service ε χ ρ}

/-- Where a message leaves the world, unless it traps. -/
def land (P : Player S μ) (w : World σ ε κ) : Outcome σ κ χ ω → Option (World σ ε κ)
  | .reply s _ => some {w with state := s}
  | .call s k q => some (w.suspend s k (P.take w.next q w.env))
  | .trap => none

theorem land_lands {P : Player S μ} {w w' : World σ ε κ} {o : Outcome σ κ χ ω}
    (h : P.land w o = some w') : Lands S w o w' := by
  cases o with
  | reply s a => cases h; exact .reply
  | call s k q => cases h; exact .call (P.take_ok _ _ _)
  | trap => cases h

/-- The world after one move, if the move can be made and no message traps. -/
def move (P : Player S μ) (C : Canister σ ι κ χ ρ ω) (w : World σ ε κ) :
    Move ι ρ μ → Option (World σ ε κ)
  | .call i => P.land w (C.start w.now i w.state)
  | .reply t r =>
      (w.tasks t).bind fun k =>
        if P.answers t r w.env then P.land (w.finish t) (C.resume w.now k r w.state) else none
  | .upgrade => (C.upgrade w.now w.state).map fun s => {w with state := s, tasks := fun _ => none}
  | .wait n => if w.now ≤ n then some {w with now := n} else none
  | .elsewhere m => (P.play m w.env).map fun e => {w with env := e}

theorem move_step {P : Player S μ} {C : Canister σ ι κ χ ρ ω} {w w' : World σ ε κ}
    {m : Move ι ρ μ} (h : P.move C w m = some w') : C.Step S w m.event w' := by
  cases m with
  | call i => exact .call (land_lands h)
  | reply t r =>
    obtain ⟨k, hk, h⟩ := Option.bind_eq_some_iff.1 h
    split at h
    · next hr => exact .reply hk (P.answers_ok _ _ _ hr) (land_lands h)
    · cases h
  | upgrade =>
    obtain ⟨s, hs, rfl⟩ := Option.map_eq_some_iff.1 h
    exact .upgrade hs
  | wait n =>
    simp only [move] at h
    split at h
    · next hn => cases h; exact .wait hn
    · cases h
  | elsewhere m =>
    obtain ⟨e, he, rfl⟩ := Option.map_eq_some_iff.1 h
    exact .elsewhere (P.play_ok _ _ _ he)

/-- The world after a list of moves, each of which passes the check. -/
def run (P : Player S μ) (C : Canister σ ι κ χ ρ ω) (check : World σ ε κ → Event ι ρ → Bool)
    (w : World σ ε κ) (ms : List (Move ι ρ μ)) : Option (World σ ε κ) :=
  ms.foldlM (fun w m => if check w m.event then P.move C w m else none) w

/-- A played run is a run. -/
theorem run_runIf {P : Player S μ} {C : Canister σ ι κ χ ρ ω}
    {check : World σ ε κ → Event ι ρ → Bool} {ok : World σ ε κ → Event ι ρ → Prop}
    {init : World σ ε κ → Prop} (hok : ∀ w e, check w e = true → ok w e) {w w' : World σ ε κ}
    {ms : List (Move ι ρ μ)} (hw : (C.system S init).RunIf ok w)
    (h : P.run C check w ms = some w') : (C.system S init).RunIf ok w' := by
  induction ms generalizing w with
  | nil => cases h; exact hw
  | cons m ms ih =>
    simp only [run, List.foldlM_cons] at h
    obtain ⟨v, hv, h⟩ := Option.bind_eq_some_iff.1 h
    split at hv
    · next hc => exact ih (.step hw (hok _ _ hc) (move_step hv)) h
    · cases hv

end Player

end StshProtocol.Foundation
