import StshProtocol.Foundation.Transition
import Mathlib.Logic.Function.Basic

/-! Programs that await, and what holds whatever runs between their awaits.

An `Async` program has finished, has thrown, or awaits an action and goes on with its answer. A
`Shell` runs any number of them over one shared state: between an await and its answer every other
task may move, and a task that is never answered has been stopped. What a task does is proved
along its own text (`Outline`): each assertion is one that the moves of the others leave true, and
each answer is shown to keep the shared invariant and to be a move the task is allowed. `RunIf`
outlined (`Shell.run_outlined`) puts the outlines of all tasks together. -/
namespace StshProtocol.Foundation

/-- A program over the actions `A`, with the answers `R`. -/
inductive Async (A : Type) (R : A → Type) (ε α : Type) where
  | done (a : α)
  | throw (e : ε)
  | await (act : A) (k : R act → Async A R ε α)

namespace Async
variable {A : Type} {R : A → Type} {ε α β : Type}

def bind (p : Async A R ε α) (f : α → Async A R ε β) : Async A R ε β :=
  match p with
  | .done a => f a
  | .throw e => .throw e
  | .await act k => .await act fun x => (k x).bind f

instance : Monad (Async A R ε) where
  pure := .done
  bind := bind

def ofExcept : Except ε α → Async A R ε α
  | .ok a => .done a
  | .error e => .throw e

end Async

/-! ### Tasks -/

/-- The shared state and the tasks, each with what it was launched for. -/
structure Tabs (σ ι : Type) (A : Type) (R : A → Type) (ε α : Type) where
  shared : σ
  tasks : Nat → Option (ι × Async A R ε α)
  next : Nat

inductive TabEvent (ι : Type) (A : Type) (R : A → Type) where
  | launch (i : ι)
  | answer (t : Nat) (act : A) (x : R act)
  | outside

/-- What runs programs: those that may be launched, with the number of the task; the answers an
action of a task may get, with the state they leave; and the moves from outside. -/
structure Shell (σ ι : Type) (A : Type) (R : A → Type) (ε α : Type) where
  init : σ → Prop
  mayLaunch : Tabs σ ι A R ε α → ι → Prop
  program : Nat → ι → Async A R ε α
  serve : Nat → ι → σ → (act : A) → R act → Option σ
  outside : σ → σ → Prop

variable {σ ι A ε α β : Type} {R : A → Type}

namespace Tabs

def launch (w : Tabs σ ι A R ε α) (i : ι) (p : Async A R ε α) : Tabs σ ι A R ε α :=
  {w with
    tasks := Function.update w.tasks w.next (some (i, p))
    next := w.next + 1}

def advance (w : Tabs σ ι A R ε α) (t : Nat) (i : ι) (p : Async A R ε α) (s : σ) :
    Tabs σ ι A R ε α :=
  {w with
    shared := s
    tasks := Function.update w.tasks t (some (i, p))}

end Tabs

namespace Shell

inductive Step (S : Shell σ ι A R ε α) :
    Tabs σ ι A R ε α → TabEvent ι A R → Tabs σ ι A R ε α → Prop where
  | launch {w : Tabs σ ι A R ε α} {i : ι} (h : S.mayLaunch w i) :
      Step S w (.launch i) (w.launch i (S.program w.next i))
  | answer {w : Tabs σ ι A R ε α} {t : Nat} {i : ι} {act : A} {k : R act → Async A R ε α} {x : R act}
      {s' : σ} (hk : w.tasks t = some (i, .await act k)) (h : S.serve t i w.shared act x = some s') :
      Step S w (.answer t act x) (w.advance t i (k x) s')
  | outside {w : Tabs σ ι A R ε α} {s' : σ} (h : S.outside w.shared s') :
      Step S w .outside {w with shared := s'}

def system (S : Shell σ ι A R ε α) : System (Tabs σ ι A R ε α) (TabEvent ι A R) where
  init w := S.init w.shared ∧ w.tasks = (fun _ => none) ∧ w.next = 0
  step := S.Step

end Shell

/-! ### Outlines -/

/-- What the tasks of a shell are shown to keep: an invariant of the shared state, the moves a task
may make, and what is known of a task that has ended. -/
structure Contract (σ ι ε α : Type) where
  inv : σ → Prop
  moves : Nat → σ → σ → Prop
  outside : σ → σ → Prop
  ends : Nat → ι → Except ε α → σ → Prop

namespace Contract
variable (C : Contract σ ι ε α)

/-- A move of anyone but the task `t`. -/
def Others (t : Nat) (s s' : σ) : Prop := (∃ u, u ≠ t ∧ C.moves u s s') ∨ C.outside s s'

/-- An assertion of task `t` that no one else can make false. -/
def Stable (t : Nat) (P : σ → Prop) : Prop := ∀ s s', C.inv s → C.Others t s s' → P s → P s'

end Contract

/-- A proof along the text of a program run by the task `t`: `serve` are the answers admitted. -/
inductive Outline (C : Contract σ ι ε β) (serve : σ → (act : A) → R act → σ → Prop) (t : Nat)
    (Q : Except ε α → σ → Prop) : (σ → Prop) → Async A R ε α → Prop where
  | done {P : σ → Prop} {a : α} (h : ∀ s, C.inv s → P s → Q (.ok a) s) : Outline C serve t Q P (.done a)
  | throw {P : σ → Prop} {e : ε} (h : ∀ s, C.inv s → P s → Q (.error e) s) :
      Outline C serve t Q P (.throw e)
  | await {P : σ → Prop} {act : A} {k : R act → Async A R ε α} (Pre : σ → Prop)
      (Post : R act → σ → Prop) (hpre : ∀ s, C.inv s → P s → Pre s) (hstable : C.Stable t Pre)
      (hserve : ∀ s x s', C.inv s → Pre s → serve s act x s' →
        C.inv s' ∧ C.moves t s s' ∧ Post x s')
      (hk : ∀ x, Outline C serve t Q (Post x) (k x)) : Outline C serve t Q P (.await act k)

namespace Outline
variable {C : Contract σ ι ε β} {serve : σ → (act : A) → R act → σ → Prop} {t : Nat}
  {γ : Type} {Q : Except ε α → σ → Prop} {Q' : Except ε γ → σ → Prop} {P P' : σ → Prop}
  {p : Async A R ε α}

/-- More may be assumed. -/
theorem strengthen (h : Outline C serve t Q P p) (himp : ∀ s, C.inv s → P' s → P s) :
    Outline C serve t Q P' p := by
  cases h with
  | done hd => exact .done fun s hi hp => hd s hi (himp s hi hp)
  | throw ht => exact .throw fun s hi hp => ht s hi (himp s hi hp)
  | await Pre Post hpre hstable hserve hk =>
    exact .await Pre Post (fun s hi hp => hpre s hi (himp s hi hp)) hstable hserve hk

theorem bind {f : α → Async A R ε γ} (h : Outline C serve t Q P p)
    (hf : ∀ a, Outline C serve t Q' (Q (.ok a)) (f a))
    (he : ∀ e s, C.inv s → Q (.error e) s → Q' (.error e) s) :
    Outline C serve t Q' P (p.bind f) := by
  induction h with
  | done hd => exact (hf _).strengthen hd
  | throw ht => exact .throw fun s hi hp => he _ s hi (ht s hi hp)
  | await Pre Post hpre hstable hserve _ ih => exact .await Pre Post hpre hstable hserve ih

end Outline

namespace Shell
variable {S : Shell σ ι A R ε α} {ok : Tabs σ ι A R ε α → TabEvent ι A R → Prop}

/-- In the runs that meet a condition, when every program that is launched has an outline, and the
moves from outside are those the contract foresees, every task still has one. -/
theorem run_outlined (C : Contract σ ι ε α) (serve : Nat → ι → σ → (act : A) → R act → σ → Prop)
    (hinit : ∀ s, S.init s → C.inv s)
    (hlaunch : ∀ w i, S.system.RunIf ok w → C.inv w.shared → ok w (.launch i) → S.mayLaunch w i →
      ∃ P, P w.shared ∧
        Outline C (serve w.next i) w.next (C.ends w.next i) P (S.program w.next i))
    (hserve : ∀ w t i act k x s', S.system.RunIf ok w → w.tasks t = some (i, .await act k) →
      ok w (.answer t act x) → S.serve t i w.shared act x = some s' → serve t i w.shared act x s')
    (houtside : ∀ w s', C.inv w.shared → ok w .outside → S.outside w.shared s' →
      C.inv s' ∧ C.outside w.shared s')
    (hends : ∀ t i r, C.Stable t (C.ends t i r)) {w : Tabs σ ι A R ε α}
    (run : S.system.RunIf ok w) :
    C.inv w.shared ∧ ∀ t i p, w.tasks t = some (i, p) →
      ∃ P, P w.shared ∧ C.Stable t P ∧ Outline C (serve t i) t (C.ends t i) P p := by
  have settle : ∀ {t i p P s}, C.inv s → P s → Outline C (serve t i) t (C.ends t i) P p →
      ∃ P', P' s ∧ C.Stable t P' ∧ Outline C (serve t i) t (C.ends t i) P' p := by
    intro t i p P s hi hp h
    cases h with
    | done hd => exact ⟨_, hd s hi hp, hends t i _, .done fun _ _ hq => hq⟩
    | throw ht => exact ⟨_, ht s hi hp, hends t i _, .throw fun _ _ hq => hq⟩
    | await Pre Post hpre hstable hserve hk =>
      exact ⟨Pre, hpre s hi hp, hstable, .await Pre Post (fun _ _ h => h) hstable hserve hk⟩
  refine System.RunIf.invariant (I := fun w => C.inv w.shared ∧ ∀ t i p, w.tasks t = some (i, p) →
    ∃ P, P w.shared ∧ C.Stable t P ∧ Outline C (serve t i) t (C.ends t i) P p) ?_ ?_ run
  · rintro w ⟨hs, htasks, -⟩
    refine ⟨hinit _ hs, fun t i p h => ?_⟩
    rw [htasks] at h
    cases h
  · intro w e w' hrun hw hok hstep
    obtain ⟨hi, htasks⟩ := hw
    cases hstep with
    | @launch i hmay =>
      refine ⟨hi, fun t j p h => ?_⟩
      by_cases ht : t = w.next
      · subst ht
        cases (Function.update_self _ _ _).symm.trans h
        obtain ⟨P, hp, houtline⟩ := hlaunch w i hrun hi hok hmay
        exact settle hi hp houtline
      · exact htasks t j p ((Function.update_of_ne ht _ _).symm.trans h)
    | @answer t i act k x s' hk hsv =>
      obtain ⟨P, hp, hstable, houtline⟩ := htasks t i _ hk
      cases houtline with
      | await Pre Post hpre hstable' hserve' hk' =>
        obtain ⟨hi', hmove, hpost⟩ := hserve' _ x s' hi (hpre _ hi hp)
          (hserve w t i act k x s' hrun hk hok hsv)
        refine ⟨hi', fun u j p h => ?_⟩
        by_cases hu : u = t
        · subst hu
          cases (Function.update_self _ _ _).symm.trans h
          exact settle hi' hpost (hk' x)
        · obtain ⟨P', hp', hstab, hout⟩ :=
            htasks u j p ((Function.update_of_ne hu _ _).symm.trans h)
          exact ⟨P', hstab _ _ hi (.inl ⟨t, Ne.symm hu, hmove⟩) hp', hstab, hout⟩
    | @outside s' hout =>
      obtain ⟨hi', hforeseen⟩ := houtside w s' hi hok hout
      refine ⟨hi', fun t i p h => ?_⟩
      obtain ⟨P, hp, hstab, houtline⟩ := htasks t i p h
      exact ⟨P, hstab _ _ hi (.inr hforeseen) hp, hstab, houtline⟩

/-- What is known of a task that has ended. -/
theorem ends_of_outline {C : Contract σ ι ε α} {serve : σ → (act : A) → R act → σ → Prop} {t : Nat}
    {i : ι} {P : σ → Prop} {s : σ} {r : Except ε α} (hi : C.inv s) (hp : P s)
    (h : Outline C serve t (C.ends t i) P (Async.ofExcept r : Async A R ε α)) : C.ends t i r s := by
  cases r with
  | ok a => cases h with | done hd => exact hd s hi hp
  | error e => cases h with | throw ht => exact ht s hi hp

/-- No task has a number that is not given out yet. -/
theorem run_unlaunched {w : Tabs σ ι A R ε α} (run : S.system.RunIf ok w) (t : Nat) (ht : w.next ≤ t) :
    w.tasks t = none := by
  refine System.RunIf.invariant (I := fun w => ∀ t, w.next ≤ t → w.tasks t = none) ?_ ?_ run t ht
  · rintro w ⟨-, htasks, -⟩ t -
    rw [htasks]
  · intro w e w' _ hw _ hstep t ht
    cases hstep with
    | launch _ =>
      have ht : w.next + 1 ≤ t := ht
      exact (Function.update_of_ne (by omega) _ _).trans (hw t (by omega))
    | @answer u i act k x s' hk _ =>
      have ht : w.next ≤ t := ht
      refine (Function.update_of_ne (fun htu => ?_) _ _).trans (hw t ht)
      subst htu
      rw [hw _ ht] at hk
      cases hk
    | outside _ => exact hw t ht

/-! ### Played runs -/

variable [DecidableEq A]

/-- One event, where it can happen; whether a program may be launched is left open. -/
def play (S : Shell σ ι A R ε α) (w : Tabs σ ι A R ε α) : TabEvent ι A R → Option (Tabs σ ι A R ε α)
  | .launch i => some (w.launch i (S.program w.next i))
  | .answer t act x =>
    match w.tasks t with
    | some (i, .await act' k) =>
      if h : act = act' then (S.serve t i w.shared act x).map (w.advance t i (k (h ▸ x))) else none
    | _ => none
  | .outside => none

/-- Events one after the other, each of which passes the check. -/
def playIf (S : Shell σ ι A R ε α) (check : Tabs σ ι A R ε α → TabEvent ι A R → Bool)
    (w : Tabs σ ι A R ε α) : List (TabEvent ι A R) → Option (Tabs σ ι A R ε α)
  | [] => some w
  | e :: es => if check w e then (S.play w e).bind fun w' => S.playIf check w' es else none

theorem step_of_play {w w' : Tabs σ ι A R ε α} {e : TabEvent ι A R}
    (hmay : ∀ i, e = .launch i → S.mayLaunch w i) (h : S.play w e = some w') : S.Step w e w' := by
  cases e with
  | launch i =>
    cases h
    exact .launch (hmay i rfl)
  | outside => cases h
  | answer t act x =>
    cases hk : w.tasks t with
    | none => simp only [play, hk, reduceCtorEq] at h
    | some task =>
      obtain ⟨i, p⟩ := task
      cases p with
      | done _ => simp only [play, hk, reduceCtorEq] at h
      | throw _ => simp only [play, hk, reduceCtorEq] at h
      | await act' k =>
        simp only [play, hk] at h
        by_cases hact : act = act'
        · subst hact
          simp only [dif_pos, Option.map_eq_some_iff] at h
          obtain ⟨s', hs, rfl⟩ := h
          exact .answer hk hs
        · simp only [dif_neg hact, reduceCtorEq] at h

theorem playIf_runIf {check : Tabs σ ι A R ε α → TabEvent ι A R → Bool}
    (hcheck : ∀ w e, check w e = true → ok w e ∧ ∀ i, e = .launch i → S.mayLaunch w i)
    {w w' : Tabs σ ι A R ε α} {es : List (TabEvent ι A R)} (run : S.system.RunIf ok w)
    (h : S.playIf check w es = some w') : S.system.RunIf ok w' := by
  induction es generalizing w with
  | nil =>
    cases h
    exact run
  | cons e es ih =>
    rw [playIf] at h
    by_cases hc : check w e = true
    · rw [if_pos hc, Option.bind_eq_some_iff] at h
      obtain ⟨w₁, hplay, hrest⟩ := h
      obtain ⟨hok, hmay⟩ := hcheck w e hc
      exact ih (run.step hok (step_of_play hmay hplay)) hrest
    · rw [if_neg hc] at h
      cases h

end Shell

end StshProtocol.Foundation
