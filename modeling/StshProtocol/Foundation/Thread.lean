import StshProtocol.Foundation.Canister

/-! The life of one message among the others.

A `Thread` follows one message from its call through its awaits: it lists the worlds
since the message was first suspended, the latest first, and the call number it waits under.
What happens to the message between two of its own segments is what any other step may do;
the steps are those a condition admits, as in `RunIf`. -/
namespace StshProtocol.Foundation

variable {σ ε ι κ χ ρ ω μ : Type}

section Step
variable {C : Canister σ ι κ χ ρ ω} {S : Service ε χ ρ} {w w' : World σ ε κ} {e : Event ι ρ}
  {o : Outcome σ κ χ ω} {t : Nat}

theorem Lands.tasks (h : Lands S w o w') (ht : t ≠ w.next) : w'.tasks t = w.tasks t := by
  cases h with
  | reply => rfl
  | call _ => exact Function.update_of_ne ht _ _

theorem Lands.next (h : Lands S w o w') : w.next ≤ w'.next := by
  cases h with
  | reply => exact Nat.le_refl _
  | call _ => exact Nat.le_succ _

theorem Lands.state (h : Lands S w o w') : o.state? = some w'.state := by
  cases h <;> rfl

theorem Lands.now (h : Lands S w o w') : w'.now = w.now := by
  cases h <;> rfl

/-- No step lowers the next call number. -/
theorem Canister.Step.next (h : C.Step S w e w') : w.next ≤ w'.next := by
  cases h with
  | call h => exact h.next
  | reply _ _ h => exact h.next
  | _ => exact Nat.le_refl _

/-- A suspended message is left alone until it is answered, or forgotten. -/
theorem Canister.Step.tasks (h : C.Step S w e w') (ht : t < w.next) (he : ∀ r, e ≠ .reply t r) :
    w'.tasks t = w.tasks t ∨ w'.tasks t = none := by
  have other : ∀ u r, e = .reply u r → t ≠ u := fun u r hu htu => he r (htu ▸ hu)
  cases h with
  | call h => exact .inl (h.tasks (Nat.ne_of_lt ht))
  | reply _ _ h =>
    refine .inl ((h.tasks (Nat.ne_of_lt ht)).trans ?_)
    exact Function.update_of_ne (other _ _ rfl) _ _
  | replyTrap _ _ _ => exact .inl (Function.update_of_ne (other _ _ rfl) _ _)
  | upgrade _ => exact .inr rfl
  | _ => exact .inl rfl

end Step

/-- The message `i` was called in `opened`; it waits under the call number `t`, and the
worlds since it was first suspended are listed, the latest first. -/
inductive Thread (C : Canister σ ι κ χ ρ ω) (S : Service ε χ ρ)
    (ok : World σ ε κ → Event ι ρ → Prop) (i : ι) (opened : World σ ε κ) :
    List (World σ ε κ) → Nat → Prop where
  | call {s : σ} {k : κ} {q : χ} {e : ε} (hok : ok opened (.call i))
      (hstart : C.start opened.now i opened.state = .call s k q)
      (haccept : S.accept opened.next q opened.env e) :
      Thread C S ok i opened [opened.suspend s k e] opened.next
  | pass {w w' : World σ ε κ} {ws : List (World σ ε κ)} {t : Nat} {e : Event ι ρ}
      (h : Thread C S ok i opened (w :: ws) t) (hok : ok w e) (he : ∀ r, e ≠ .reply t r)
      (hstep : C.Step S w e w') : Thread C S ok i opened (w' :: w :: ws) t
  | resume {w : World σ ε κ} {ws : List (World σ ε κ)} {t : Nat} {k k' : κ} {r : ρ} {s : σ} {q : χ}
      {e : ε} (h : Thread C S ok i opened (w :: ws) t) (hok : ok w (.reply t r))
      (hk : w.tasks t = some k) (hr : S.answer t r w.env)
      (hresume : C.resume w.now k r w.state = .call s k' q) (haccept : S.accept w.next q w.env e) :
      Thread C S ok i opened ((w.finish t).suspend s k' e :: w :: ws) w.next

namespace Thread
variable {C : Canister σ ι κ χ ρ ω} {S : Service ε χ ρ} {ok : World σ ε κ → Event ι ρ → Prop}
  {i : ι} {opened w : World σ ε κ} {ws : List (World σ ε κ)} {t : Nat}

/-- The call number is one already given out. -/
theorem lt_next (h : Thread C S ok i opened (w :: ws) t) : t < w.next := by
  generalize hl : w :: ws = l at h
  induction h generalizing w ws with
  | call _ _ _ =>
    cases hl
    exact Nat.lt_succ_self _
  | pass _ _ _ hstep ih =>
    cases hl
    exact Nat.lt_of_lt_of_le (ih rfl) hstep.next
  | resume _ _ _ _ _ _ _ =>
    cases hl
    exact Nat.lt_succ_self _

/-- What a thread's continuation carries: it is so when the message is first suspended, it
stays so while others run, and a segment of its own passes it on. -/
theorem invariant {P : List (World σ ε κ) → κ → Prop}
    (hcall : ∀ {s k q e}, ok opened (.call i) → C.start opened.now i opened.state = .call s k q →
      P [opened.suspend s k e] k)
    (hpass : ∀ {w w' ws t k e}, ok w e → w.tasks t = some k → C.Step S w e w' → P (w :: ws) k →
      P (w' :: w :: ws) k)
    (hresume : ∀ {w ws t k r s k' q e}, ok w (.reply t r) → w.tasks t = some k →
      S.answer t r w.env → C.resume w.now k r w.state = .call s k' q →
      P (w :: ws) k → P ((w.finish t).suspend s k' e :: w :: ws) k')
    (h : Thread C S ok i opened (w :: ws) t) {k : κ} (hk : w.tasks t = some k) : P (w :: ws) k := by
  generalize hl : w :: ws = l at h
  induction h generalizing w ws k with
  | call hok hstart _ =>
    cases hl
    cases (Function.update_self _ _ _).symm.trans hk
    exact hcall hok hstart
  | pass h hok he hstep ih =>
    cases hl
    rcases hstep.tasks h.lt_next he with hsame | hgone
    · have hk := hsame.symm.trans hk
      exact hpass hok hk hstep (ih hk rfl)
    · cases hgone.symm.trans hk
  | resume h hok hk' hr hres _ ih =>
    cases hl
    cases (Function.update_self _ _ _).symm.trans hk
    exact hresume hok hk' hr hres (ih hk' rfl)

end Thread

/-! ### Played threads -/

namespace Player
variable {S : Service ε χ ρ}

/-- The message is called. -/
def begin (P : Player S μ) (C : Canister σ ι κ χ ρ ω) (w : World σ ε κ) (i : ι) :
    Option (List (World σ ε κ) × Nat) :=
  match C.start w.now i w.state with
  | .call s k q => some ([w.suspend s k (P.take w.next q w.env)], w.next)
  | _ => none

/-- One move in the life of the message: a reply to it resumes it, another move passes. -/
def follow (P : Player S μ) (C : Canister σ ι κ χ ρ ω)
    (check : World σ ε κ → Event ι ρ → Bool) (life : List (World σ ε κ) × Nat) (m : Move ι ρ μ) :
    Option (List (World σ ε κ) × Nat) :=
  match life.1 with
  | [] => none
  | w :: ws =>
    if check w m.event then
      match m with
      | .reply t r =>
        if t = life.2 then
          (w.tasks t).bind fun k =>
            if P.answers t r w.env then
              match C.resume w.now k r w.state with
              | .call s k' q =>
                some ((w.finish t).suspend s k' (P.take w.next q w.env) :: w :: ws, w.next)
              | _ => none
            else none
        else (P.move C w (.reply t r)).map fun w' => (w' :: w :: ws, life.2)
      | m => (P.move C w m).map fun w' => (w' :: w :: ws, life.2)
    else none

theorem begin_thread {P : Player S μ} {C : Canister σ ι κ χ ρ ω}
    {ok : World σ ε κ → Event ι ρ → Prop} {w : World σ ε κ} {i : ι}
    {life : List (World σ ε κ) × Nat} (hok : ok w (.call i)) (h : P.begin C w i = some life) :
    Thread C S ok i w life.1 life.2 := by
  unfold begin at h
  split at h
  · next hstart =>
    cases h
    exact .call hok hstart (P.take_ok _ _ _)
  · cases h

theorem follow_thread {P : Player S μ} {C : Canister σ ι κ χ ρ ω}
    {check : World σ ε κ → Event ι ρ → Bool} {ok : World σ ε κ → Event ι ρ → Prop}
    (hok : ∀ w e, check w e = true → ok w e) {opened : World σ ε κ} {i : ι}
    {life life' : List (World σ ε κ) × Nat} {m : Move ι ρ μ} (hl : Thread C S ok i opened life.1 life.2)
    (h : P.follow C check life m = some life') : Thread C S ok i opened life'.1 life'.2 := by
  obtain ⟨worlds, t⟩ := life
  have passes : ∀ {w ws m}, Thread C S ok i opened (w :: ws) t → check w (Move.event m) = true →
      (∀ r, m ≠ .reply t r) → ((P.move C w m).map fun w' => (w' :: w :: ws, t)) = some life' →
      Thread C S ok i opened life'.1 life'.2 := by
    intro w ws m hl hc hm h
    obtain ⟨w', hw', rfl⟩ := Option.map_eq_some_iff.1 h
    refine .pass hl (hok _ _ hc) (fun r hr => ?_) (move_step hw')
    cases m with
    | reply u q =>
      cases hr
      exact hm _ rfl
    | _ => cases hr
  cases worlds with
  | nil => cases h
  | cons w ws =>
    simp only [follow] at h
    split at h
    · next hc =>
      cases m with
      | reply u r =>
        simp only at h
        split at h
        · next hu =>
          subst hu
          obtain ⟨k, hk, h⟩ := Option.bind_eq_some_iff.1 h
          split at h
          · next hr =>
            split at h
            · next hres =>
              cases h
              exact .resume hl (hok _ _ hc) hk (P.answers_ok _ _ _ hr) hres (P.take_ok _ _ _)
            · cases h
          · cases h
        · next hu => exact passes hl hc (fun r' hr' => hu (by cases hr'; rfl)) h
      | _ => exact passes hl hc nofun h
    · cases h

theorem follows_thread {P : Player S μ} {C : Canister σ ι κ χ ρ ω}
    {check : World σ ε κ → Event ι ρ → Bool} {ok : World σ ε κ → Event ι ρ → Prop}
    (hok : ∀ w e, check w e = true → ok w e) {opened : World σ ε κ} {i : ι} {ms : List (Move ι ρ μ)}
    {life life' : List (World σ ε κ) × Nat} (hl : Thread C S ok i opened life.1 life.2)
    (h : ms.foldlM (P.follow C check) life = some life') :
    Thread C S ok i opened life'.1 life'.2 := by
  induction ms generalizing life with
  | nil =>
    cases h
    exact hl
  | cons m ms ih =>
    rw [List.foldlM_cons] at h
    obtain ⟨second, hsecond, h⟩ := Option.bind_eq_some_iff.1 h
    exact ih (follow_thread hok hl hsecond) h

/-- The life of a message through the given moves. -/
def live (P : Player S μ) (C : Canister σ ι κ χ ρ ω) (check : World σ ε κ → Event ι ρ → Bool)
    (w : World σ ε κ) (i : ι) (ms : List (Move ι ρ μ)) : Option (List (World σ ε κ) × Nat) :=
  if check w (.call i) then (P.begin C w i).bind fun life => ms.foldlM (P.follow C check) life
  else none

theorem live_thread {P : Player S μ} {C : Canister σ ι κ χ ρ ω}
    {check : World σ ε κ → Event ι ρ → Bool} {ok : World σ ε κ → Event ι ρ → Prop}
    (hok : ∀ w e, check w e = true → ok w e) {w : World σ ε κ} {i : ι} {ms : List (Move ι ρ μ)}
    {life : List (World σ ε κ) × Nat} (h : P.live C check w i ms = some life) :
    Thread C S ok i w life.1 life.2 := by
  unfold live at h
  split at h
  · next hc =>
    obtain ⟨first, hfirst, h⟩ := Option.bind_eq_some_iff.1 h
    exact follows_thread hok (begin_thread (hok _ _ hc) hfirst) h
  · cases h

end Player

end StshProtocol.Foundation
