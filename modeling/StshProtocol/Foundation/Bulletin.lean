import Mathlib.Algebra.Order.Ring.Int
import Mathlib.Data.List.Basic

/-! Publishing a view of a state, at every tick and whenever the view changes.

The board always shows the view of the state there is (`run_current`). What it publishes while the
view does not change is what it would publish at the ticks alone (`run_log_of_still`), so that two such
runs with the same ticks cannot be told apart, whatever the state does (`run_log_eq`). -/
namespace StshProtocol.Foundation.Bulletin

/-- A state, the view of it that is shown, and all that was published, the latest last. -/
structure Board (σ δ ω : Type) where
  state : σ
  shown : δ
  log : List ω

inductive Notice (σ τ : Type) where
  | change (now : τ) (state : σ)
  | tick (now : τ)

section
variable {σ τ : Type}

/-- The time of a tick. -/
def Notice.tick? : Notice σ τ → Option τ
  | .change _ _ => none
  | .tick now => some now

def ticks (ns : List (Notice σ τ)) : List τ := ns.filterMap Notice.tick?

/-- No change leads to another view. -/
def Still {δ : Type} (view : σ → δ) (shown : δ) (ns : List (Notice σ τ)) : Prop :=
  ∀ now s, .change now s ∈ ns → view s = shown

end

variable {σ δ τ ω : Type} [DecidableEq δ] (view : σ → δ) (render : δ → τ → ω)

def publish (b : Board σ δ ω) (now : τ) : Board σ δ ω :=
  {b with shown := view b.state, log := b.log ++ [render (view b.state) now]}

def post (b : Board σ δ ω) : Notice σ τ → Board σ δ ω
  | .change now s =>
    if view s = b.shown then {b with state := s} else publish view render {b with state := s} now
  | .tick now => publish view render b now

def run (b : Board σ δ ω) (ns : List (Notice σ τ)) : Board σ δ ω := ns.foldl (post view render) b

variable {view render} {b : Board σ δ ω} {ns ns' : List (Notice σ τ)}

theorem post_current (b : Board σ δ ω) (n : Notice σ τ) :
    (post view render b n).shown = view (post view render b n).state := by
  cases n with
  | tick now => rfl
  | change now s =>
    rw [post]
    by_cases h : view s = b.shown
    · rw [if_pos h]
      exact h.symm
    · rw [if_neg h]
      rfl

/-- The board shows the view of the state it has. -/
theorem run_current (hb : b.shown = view b.state) :
    (run view render b ns).shown = view (run view render b ns).state := by
  induction ns generalizing b with
  | nil => exact hb
  | cons n ns ih => exact ih (post_current b n)

theorem post_still {n : Notice σ τ} (hb : b.shown = view b.state)
    (h : ∀ now s, n = .change now s → view s = b.shown) :
    (post view render b n).shown = b.shown ∧
      (post view render b n).log = b.log ++ n.tick?.toList.map (render b.shown) := by
  cases n with
  | tick now =>
    rw [post, publish, hb]
    exact ⟨rfl, rfl⟩
  | change now s =>
    rw [post, if_pos (h now s rfl)]
    exact ⟨rfl, (List.append_nil _).symm⟩

/-- While the view does not change only the ticks publish. -/
theorem run_log_of_still (hb : b.shown = view b.state) (h : Still view b.shown ns) :
    (run view render b ns).log = b.log ++ (ticks ns).map (render b.shown) := by
  induction ns generalizing b with
  | nil => exact (List.append_nil _).symm
  | cons n ns ih =>
    obtain ⟨hshown, hlog⟩ := post_still hb fun now s hn =>
      h now s (hn ▸ List.mem_cons_self)
    have hrest := ih (post_current b n) fun now s hs => by
      rw [hshown]
      exact h now s (List.mem_cons_of_mem _ hs)
    rw [hlog, hshown] at hrest
    rw [run, List.foldl_cons]
    refine hrest.trans ?_
    rw [ticks, ticks, List.append_assoc, ← List.map_append]
    cases hn : n.tick? with
    | none => rw [List.filterMap_cons_none hn]; rfl
    | some now => rw [List.filterMap_cons_some hn]; rfl

/-- Two runs with the same ticks and the same unchanging view publish the same. -/
theorem run_log_eq {b' : Board σ δ ω} (hb : b.shown = view b.state) (hb' : b'.shown = view b'.state)
    (hshown : b.shown = b'.shown) (hlog : b.log = b'.log) (h : Still view b.shown ns)
    (h' : Still view b'.shown ns') (hticks : ticks ns = ticks ns') :
    (run view render b ns).log = (run view render b' ns').log := by
  rw [run_log_of_still hb h, run_log_of_still hb' h', hshown, hlog, hticks]

/-- The state is the first one or one that a change led to. -/
theorem run_state {P : σ → Prop} (hb : P b.state) (h : ∀ now s, .change now s ∈ ns → P s) :
    P (run view render b ns).state := by
  induction ns generalizing b with
  | nil => exact hb
  | cons n ns ih =>
    have hpost : P (post view render b n).state := by
      cases n with
      | tick now => exact hb
      | change now s =>
        have hs := h now s List.mem_cons_self
        rw [post]
        split
        · exact hs
        · exact hs
    exact ih hpost fun now s hs => h now s (List.mem_cons_of_mem _ hs)

end StshProtocol.Foundation.Bulletin
