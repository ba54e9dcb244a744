import StshProtocol.Foundation.Async

/-! Promises of programs that await.

An answer is given at one time and delivered at another, so that between the two the program still
waits. Of a program in flight what it was answered is kept, its transcript. What a program does only
after certain answers is proved along its text (`Async.Along`), and holds wherever the program
stands (`Flight.along_deliver`). -/
namespace StshProtocol.Foundation

/-- Answers, the latest first. -/
abbrev Transcript (A : Type) (R : A → Type) : Type := List (Σ act, R act)

variable {A ε α β : Type} {R : A → Type}

namespace Async

/-- `try … catch`. -/
def tryCatch (p : Async A R ε α) (handler : ε → Async A R ε α) : Async A R ε α :=
  match p with
  | .done a => .done a
  | .throw e => handler e
  | .await act k => .await act fun x => (k x).tryCatch handler

/-- Every action of the program comes after answers that meet `P`, and its end after answers that
meet `Q`. -/
def Along (P : Transcript A R → A → Prop) (Q : Transcript A R → Except ε α → Prop)
    (seen : Transcript A R) : Async A R ε α → Prop
  | .done a => Q seen (.ok a)
  | .throw e => Q seen (.error e)
  | .await act k => P seen act ∧ ∀ x, (k x).Along P Q (⟨act, x⟩ :: seen)

section Along
variable {P : Transcript A R → A → Prop} {Q : Transcript A R → Except ε α → Prop}
  {Q' : Transcript A R → Except ε β → Prop} {seen : Transcript A R}

theorem Along.bind {p : Async A R ε α} {f : α → Async A R ε β} (hp : p.Along P Q seen)
    (hok : ∀ seen a, Q seen (.ok a) → (f a).Along P Q' seen)
    (herror : ∀ seen e, Q seen (.error e) → Q' seen (.error e)) : (p >>= f).Along P Q' seen := by
  show (p.bind f).Along P Q' seen
  induction p generalizing seen with
  | done a => exact hok seen a hp
  | throw e => exact herror seen e hp
  | await act k ih => exact ⟨hp.1, fun x => ih x (hp.2 x)⟩

theorem Along.tryCatch {Q' : Transcript A R → Except ε α → Prop} {p : Async A R ε α}
    {handler : ε → Async A R ε α} (hp : p.Along P Q seen)
    (hok : ∀ seen a, Q seen (.ok a) → Q' seen (.ok a))
    (herror : ∀ seen e, Q seen (.error e) → (handler e).Along P Q' seen) :
    (p.tryCatch handler).Along P Q' seen := by
  induction p generalizing seen with
  | done a => exact hok seen a hp
  | throw e => exact herror seen e hp
  | await act k ih => exact ⟨hp.1, fun x => ih x (hp.2 x)⟩

/-- What more answers leave true is true all along. -/
theorem along_of_stable {I : Transcript A R → Prop} (hI : ∀ seen x, I seen → I (x :: seen))
    (hP : ∀ seen act, I seen → P seen act) (p : Async A R ε α) (h : I seen) :
    p.Along P (fun seen _ => I seen) seen := by
  induction p generalizing seen with
  | done a => exact h
  | throw e => exact h
  | await act k ih => exact ⟨hP seen act h, fun x => ih x (hI seen _ h)⟩

theorem Along.weaken {Q' : Transcript A R → Except ε α → Prop} {p : Async A R ε α}
    (hp : p.Along P Q seen) (h : ∀ seen r, Q seen r → Q' seen r) : p.Along P Q' seen := by
  induction p generalizing seen with
  | done a => exact h seen _ hp
  | throw e => exact h seen _ hp
  | await act k ih => exact ⟨hp.1, fun x => ih x (hp.2 x)⟩

end Along

end Async

/-! ### Programs in flight -/

/-- Where a program stands: it waits for an action, the answer perhaps on its way, or its promise is
settled. -/
inductive Progress (A : Type) (R : A → Type) (ε α : Type) where
  | waiting (act : A) (k : R act → Async A R ε α) (reply : Option (R act))
  | settled (result : Except ε α)

def Progress.of : Async A R ε α → Progress A R ε α
  | .done a => .settled (.ok a)
  | .throw e => .settled (.error e)
  | .await act k => .waiting act k none

/-- A program in flight, with what it was answered so far. -/
structure Flight (A : Type) (R : A → Type) (ε α : Type) where
  seen : Transcript A R
  progress : Progress A R ε α

namespace Flight
variable {P : Transcript A R → A → Prop} {Q : Transcript A R → Except ε α → Prop}
  {f : Flight A R ε α} {act : A} {k : R act → Async A R ε α}

def start (p : Async A R ε α) : Flight A R ε α := ⟨[], .of p⟩

/-- The answer is on its way. -/
def answer (f : Flight A R ε α) (act : A) (k : R act → Async A R ε α) (x : R act) : Flight A R ε α :=
  {f with progress := .waiting act k (some x)}

/-- The answer arrives, and the program goes on to what it awaits next. -/
def deliver (f : Flight A R ε α) (act : A) (k : R act → Async A R ε α) (x : R act) : Flight A R ε α :=
  ⟨⟨act, x⟩ :: f.seen, .of (k x)⟩

/-- What the program was answered, an answer on its way included. -/
def answers (f : Flight A R ε α) : Transcript A R :=
  match f.progress with
  | .waiting act _ (some x) => ⟨act, x⟩ :: f.seen
  | .waiting _ _ none => f.seen
  | .settled _ => f.seen

/-- The program waits for this action. -/
def Awaits (f : Flight A R ε α) (act : A) : Prop := ∃ k reply, f.progress = .waiting act k reply

def Along (P : Transcript A R → A → Prop) (Q : Transcript A R → Except ε α → Prop)
    (f : Flight A R ε α) : Prop :=
  match f.progress with
  | .waiting act k _ => P f.seen act ∧ ∀ x, (k x).Along P Q (⟨act, x⟩ :: f.seen)
  | .settled r => Q f.seen r

theorem along_of {p : Async A R ε α} {seen : Transcript A R} (h : p.Along P Q seen) :
    Along P Q ⟨seen, .of p⟩ := by
  cases p with
  | done a => exact h
  | throw e => exact h
  | await act k => exact h

theorem along_answer {x : R act} {reply : Option (R act)} (h : f.Along P Q)
    (hf : f.progress = .waiting act k reply) : (f.answer act k x).Along P Q := by
  rw [Along, hf] at h
  exact h

theorem along_deliver {x : R act} {reply : Option (R act)} (h : f.Along P Q)
    (hf : f.progress = .waiting act k reply) : (f.deliver act k x).Along P Q := by
  rw [Along, hf] at h
  exact along_of (h.2 x)

theorem Along.awaits (h : f.Along P Q) (hf : f.Awaits act) : P f.seen act := by
  obtain ⟨k, reply, hprogress⟩ := hf
  rw [Along, hprogress] at h
  exact h.1

theorem answers_start (p : Async A R ε α) : (start p).answers = [] := by
  cases p <;> rfl

theorem answers_deliver {x : R act} (hf : f.progress = .waiting act k (some x)) :
    (f.deliver act k x).answers = f.answers := by
  have hof : ∀ (p : Async A R ε α) (seen : Transcript A R), answers ⟨seen, .of p⟩ = seen := by
    intro p seen
    cases p <;> rfl
  rw [deliver, hof, answers, hf]

theorem seen_subset (f : Flight A R ε α) : ∀ a ∈ f.seen, a ∈ f.answers := by
  intro a ha
  rw [answers]
  split
  · exact List.mem_cons_of_mem _ ha
  · exact ha
  · exact ha

end Flight

end StshProtocol.Foundation
