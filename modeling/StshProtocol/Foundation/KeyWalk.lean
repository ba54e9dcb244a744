import StshProtocol.Foundation.Except
import StshProtocol.Foundation.StableMap

/-! Walking a map by key while the walk changes it.

A `KeyWalk` visits the entries of a map that its own state contains, remembering
the key it saw last. A visit may overwrite or remove the entry it is at, never
another. So a walk can stop anywhere and resume from the remembered key: a slice
of it leaves exactly the entries it has not seen (`ahead_slice`), and finishing
after a slice is the whole walk (`walk_slice`). -/
namespace StshProtocol.Foundation

/-- A walk over the map in a state, with the position the state remembers. -/
structure KeyWalk (σ ε κ ν : Type) [Ord κ] [Std.TransOrd κ] where
  map : σ → StableMap κ ν
  last : σ → Option κ
  visit : σ → κ × ν → Except ε σ
  moves : ∀ {s s' : σ} {k : κ} {v : ν}, (map s)[k]? = some v → visit s (k, v) = .ok s' →
    last s' = some k
  own : ∀ {s s' : σ} {k : κ} {v : ν}, (map s)[k]? = some v → visit s (k, v) = .ok s' →
    ∀ a, a ≠ k → (map s')[a]? = (map s)[a]?

namespace KeyWalk

variable {σ ε κ ν : Type} [Ord κ] [Std.TransOrd κ] [Std.LawfulEqOrd κ] (W : KeyWalk σ ε κ ν)

/-- The entries the walk has before it. -/
def ahead (s : σ) : List (κ × ν) := (W.map s).entriesAfter (W.last s)

/-- All the visits that are left. -/
def walk (s : σ) : Except ε σ := (W.ahead s).foldlM W.visit s

variable {W}

theorem ahead_visit {s s' : σ} {e : κ × ν} {rest : List (κ × ν)} (h : W.ahead s = e :: rest)
    (hv : W.visit s e = .ok s') : W.ahead s' = rest := by
  obtain ⟨k, v⟩ := e
  have hk : (W.map s)[k]? = some v :=
    (StableMap.mem_entriesAfter.1 (h ▸ List.mem_cons_self (a := (k, v)))).1
  rw [ahead, W.moves hk hv]
  exact StableMap.entriesAfter_step h (W.own hk hv)

/-- A property that every visit preserves holds after the visits of any list that
begins what is ahead. -/
theorem foldlM_induction {P : σ → Prop}
    (step : ∀ {s s' e rest}, W.ahead s = e :: rest → W.visit s e = .ok s' → P s → P s')
    {batch rest : List (κ × ν)} {s s' : σ} (h : W.ahead s = batch ++ rest)
    (hf : batch.foldlM W.visit s = .ok s') (hp : P s) : P s' ∧ W.ahead s' = rest := by
  induction batch generalizing s with
  | nil =>
    cases hf
    exact ⟨hp, h⟩
  | cons e batch ih =>
    rw [List.foldlM_cons] at hf
    cases hv : W.visit s e with
    | error t => rw [hv] at hf; cases hf
    | ok s₁ =>
      rw [hv] at hf
      exact ih (ahead_visit h hv) hf (step h hv hp)

theorem walk_induction {P : σ → Prop}
    (step : ∀ {s s' e rest}, W.ahead s = e :: rest → W.visit s e = .ok s' → P s → P s')
    {s s' : σ} (hs : W.walk s = .ok s') (hp : P s) : P s' :=
  (foldlM_induction step (List.append_nil (W.ahead s)).symm hs hp).1

theorem ahead_walk {s s' : σ} (hs : W.walk s = .ok s') : W.ahead s' = [] :=
  (foldlM_induction (P := fun _ => True) (fun _ _ _ => trivial)
    (List.append_nil (W.ahead s)).symm hs trivial).2

/-- A walk and a fold over what it has ahead stay related when each visit and its
counterpart do. -/
theorem foldlM_simulates {τ : Type} {R : σ → τ → Prop} {f : τ → κ × ν → Except ε τ}
    (step : ∀ {s s' t k v}, (W.map s)[k]? = some v → W.visit s (k, v) = .ok s' → R s t →
      ∃ t', f t (k, v) = .ok t' ∧ R s' t')
    {batch rest : List (κ × ν)} {s s' : σ} {t : τ} (h : W.ahead s = batch ++ rest)
    (hf : batch.foldlM W.visit s = .ok s') (hr : R s t) :
    ∃ t', batch.foldlM f t = .ok t' ∧ R s' t' := by
  induction batch generalizing s t with
  | nil =>
    cases hf
    exact ⟨t, rfl, hr⟩
  | cons e batch ih =>
    obtain ⟨s₁, hv, hf⟩ := foldlM_cons_ok hf
    have hmem : e ∈ W.ahead s := h ▸ List.mem_cons_self
    have hk := (StableMap.mem_entriesAfter.1 hmem).1
    obtain ⟨t₁, ht₁, hr₁⟩ := step hk hv hr
    obtain ⟨t', ht', hr'⟩ := ih (ahead_visit h hv) hf hr₁
    exact ⟨t', bind_of_ok ht₁ ht', hr'⟩

theorem walk_simulates {τ : Type} {R : σ → τ → Prop} {f : τ → κ × ν → Except ε τ}
    (step : ∀ {s s' t k v}, (W.map s)[k]? = some v → W.visit s (k, v) = .ok s' → R s t →
      ∃ t', f t (k, v) = .ok t' ∧ R s' t')
    {s s' : σ} {t : τ} (hw : W.walk s = .ok s') (hr : R s t) :
    ∃ t', (W.ahead s).foldlM f t = .ok t' ∧ R s' t' :=
  foldlM_simulates step (List.append_nil (W.ahead s)).symm hw hr

/-- What each visit adds to a measure, the walk adds in order. -/
theorem walk_folds {τ : Type} {g : σ → τ} {f : τ → κ × ν → τ}
    (step : ∀ {s s' k v}, (W.map s)[k]? = some v → W.visit s (k, v) = .ok s' →
      g s' = f (g s) (k, v))
    {s s' : σ} (hw : W.walk s = .ok s') : g s' = (W.ahead s).foldl f (g s) := by
  obtain ⟨t, ht, hr⟩ := walk_simulates (R := fun s t => g s = t) (f := fun t e => .ok (f t e))
    (fun hk hv hr => ⟨_, rfl, by rw [step hk hv, hr]⟩) hw rfl
  rw [foldlM_pure_ok] at ht
  exact hr.trans (Except.ok.inj ht).symm

/-- Visits elsewhere leave an entry alone. -/
theorem foldlM_frame {batch rest : List (κ × ν)} {s s' : σ} {k : κ} (h : W.ahead s = batch ++ rest)
    (hf : batch.foldlM W.visit s = .ok s') (hk : ∀ e ∈ batch, e.1 ≠ k) :
    (W.map s')[k]? = (W.map s)[k]? := by
  induction batch generalizing s with
  | nil =>
    cases hf
    rfl
  | cons e batch ih =>
    obtain ⟨s₁, hv, hf⟩ := foldlM_cons_ok hf
    have hne : k ≠ e.1 := (hk e List.mem_cons_self).symm
    rw [ih (ahead_visit h hv) hf fun d hd => hk d (List.mem_cons_of_mem e hd)]
    exact W.own (StableMap.get_of_ahead h) hv k hne

/-- What its own visit makes of an entry, the walk makes of it. -/
theorem walk_own {P : κ → ν → Option ν → Prop}
    (hv : ∀ {s s' k v}, (W.map s)[k]? = some v → W.visit s (k, v) = .ok s' → P k v (W.map s')[k]?)
    {s t : σ} (hw : W.walk s = .ok t) {k : κ} {v : ν} (hk : (k, v) ∈ W.ahead s) :
    P k v (W.map t)[k]? := by
  have hsorted : (W.ahead s).Pairwise fun a b => a.1 ≠ b.1 :=
    ((W.map s).entriesAfter_sorted (W.last s)).imp fun {a b} hlt heq => by
      rw [heq] at hlt
      simp at hlt
  obtain ⟨front, back, hsplit⟩ := List.append_of_mem hk
  rw [walk, hsplit, List.foldlM_append] at hw
  obtain ⟨s₁, hfront, hw⟩ := bind_ok hw
  obtain ⟨s₂, hvisit, hback⟩ := foldlM_cons_ok hw
  have ha₁ : W.ahead s₁ = (k, v) :: back :=
    (foldlM_induction (P := fun _ => True) (fun _ _ _ => trivial) hsplit hfront trivial).2
  have ha₂ : W.ahead s₂ = back ++ [] := by
    rw [ahead_visit ha₁ hvisit, List.append_nil]
  rw [hsplit, List.pairwise_append, List.pairwise_cons] at hsorted
  rw [foldlM_frame ha₂ hback fun e he => (hsorted.2.1.1 e he).symm]
  exact hv (StableMap.get_of_ahead ha₁) hvisit

/-- A walk adds no key. -/
theorem walk_none {s t : σ} (hw : W.walk s = .ok t) {k : κ} (hk : (W.map s)[k]? = none) :
    (W.map t)[k]? = none := by
  refine walk_induction (P := fun s => (W.map s)[k]? = none) ?_ hw hk
  rintro s s' e rest ha hv hnone
  have he := StableMap.get_of_ahead ha
  rw [W.own he hv k (by rintro rfl; rw [hnone] at he; cases he), hnone]

/-- What a visit that succeeds says of its entry holds of all entries ahead of a walk
that succeeds. -/
theorem walk_each {I : σ → Prop} {P : κ → ν → Prop}
    (hv : ∀ {s s' k v}, I s → (W.map s)[k]? = some v → W.visit s (k, v) = .ok s' → I s' ∧ P k v)
    {s t : σ} (hw : W.walk s = .ok t) (hs : I s) : ∀ e ∈ W.ahead s, P e.1 e.2 := by
  suffices h : ∀ (batch rest : List (κ × ν)) (s : σ), W.ahead s = batch ++ rest →
      batch.foldlM W.visit s = .ok t → I s → ∀ e ∈ batch, P e.1 e.2 from
    h _ [] s (List.append_nil _).symm hw hs
  intro batch rest
  induction batch with
  | nil => exact fun _ _ _ _ e he => absurd he List.not_mem_nil
  | cons d batch ih =>
    intro s ha hf hs e he
    obtain ⟨s₁, hvisit, hf⟩ := foldlM_cons_ok hf
    obtain ⟨hs₁, hd⟩ := hv hs (StableMap.get_of_ahead ha) hvisit
    rcases List.mem_cons.1 he with rfl | he
    · exact hd
    · exact ih s₁ (ahead_visit ha hvisit) hf hs₁ e he

omit [Std.LawfulEqOrd κ] in
/-- A walk whose every visit succeeds succeeds. -/
theorem walk_progress {I : σ → Prop} {P : κ → ν → Prop}
    (hv : ∀ {s k v}, I s → P k v → ∃ s', W.visit s (k, v) = .ok s' ∧ I s')
    {s : σ} (hs : I s) (hall : ∀ e ∈ W.ahead s, P e.1 e.2) : ∃ t, W.walk s = .ok t := by
  rw [walk]
  generalize W.ahead s = batch at hall
  induction batch generalizing s with
  | nil => exact ⟨s, rfl⟩
  | cons e batch ih =>
    obtain ⟨s₁, hvisit, hs₁⟩ := hv hs (hall e List.mem_cons_self)
    obtain ⟨t, ht⟩ := ih hs₁ fun d hd => hall d (List.mem_cons_of_mem e hd)
    exact ⟨t, bind_of_ok hvisit ht⟩

end KeyWalk
end StshProtocol.Foundation
