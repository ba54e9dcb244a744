import Mathlib.Algebra.Order.Ring.Int
import Mathlib.Data.List.Count
import Mathlib.Data.List.Perm.Basic

/-! Counting times over sliding windows.

Times are `Spaced` when no half-open interval of one length holds more than so many of them. A
log stays so if a time is only added to it, no earlier than any before, while fewer than that
many lie less than the length back (`Spaced.push`). What stands for the logged times may not be
the times themselves: a list `Covers` the log if, from the edge of the window on, it has at least
as many entries as late as the log has, and then the number of its entries bounds the recent
part of the log (`Covers.recent_le`). -/
namespace StshProtocol.Foundation.Window

variable {span n now now' a : Nat} {times cs es cs' es' : List Nat} {c e t : Nat}

/-- No half-open interval of this length holds more than `n` of the times. -/
def Spaced (span n : Nat) (times : List Nat) : Prop :=
  ∀ a, times.countP (fun t => decide (a ≤ t ∧ t < a + span)) ≤ n

/-- How many of the times are less than `span` back. -/
def recent (span now : Nat) (times : List Nat) : Nat :=
  times.countP fun t => decide (now - t < span)

theorem spaced_nil : Spaced span n [] := fun _ => Nat.zero_le n

/-- A time is added while there is room in the window that ends with it. -/
theorem Spaced.push (h : Spaced span n times) (hpast : ∀ t ∈ times, t ≤ now)
    (hroom : recent span now times < n) : Spaced span n (now :: times) := by
  intro a
  rw [List.countP_cons]
  by_cases hin : a ≤ now ∧ now < a + span
  · rw [if_pos (decide_eq_true hin)]
    refine Nat.succ_le_of_lt (Nat.lt_of_le_of_lt (List.countP_mono_left fun t ht hwindow => ?_) hroom)
    have hle := hpast t ht
    simp only [decide_eq_true_eq] at hwindow ⊢
    omega
  · rw [if_neg (by rwa [decide_eq_true_eq])]
    exact h a

/-! ### Covering a log -/

/-- From the edge of the window on, `cs` has at least as many entries as late as `es` has. -/
def Covers (span now : Nat) (cs es : List Nat) : Prop :=
  ∀ x, now < x + span →
    es.countP (fun t => decide (x ≤ t)) ≤ cs.countP fun t => decide (x ≤ t)

theorem covers_nil : Covers span now cs [] := fun _ _ => Nat.zero_le _

theorem Covers.later (h : Covers span now cs es) (hle : now ≤ now') : Covers span now' cs es :=
  fun x hx => h x (Nat.lt_of_le_of_lt hle hx)

/-- A time is covered by one no earlier. -/
theorem covers_single (h : e ≤ c) : Covers span now [c] [e] := by
  intro x _
  rw [List.countP_singleton, List.countP_singleton]
  by_cases hx : x ≤ e
  · refine Nat.le_of_eq ?_
    rw [if_pos (decide_eq_true hx), if_pos (decide_eq_true (Nat.le_trans hx h))]
  · rw [if_neg (by rwa [decide_eq_true_eq])]
    exact Nat.zero_le _

/-- Nothing that has left the window is needed to cover what has not. -/
theorem Covers.prune (h : Covers span now cs es) (hspan : 0 < span) :
    Covers span now (cs.filter fun t => decide (now - t < span)) es := by
  intro x hx
  refine Nat.le_trans (h x hx) ?_
  rw [List.countP_filter]
  refine List.countP_mono_left fun t _ ht => ?_
  simp only [decide_eq_true_eq, Bool.and_eq_true] at ht ⊢
  omega

/-- The recent part of a covered log is no longer than the cover. -/
theorem Covers.recent_le (h : Covers span now cs es) :
    recent span now es ≤ cs.length := by
  refine Nat.le_trans ?_ (Nat.le_trans (h (now + 1 - span) (by omega)) List.countP_le_length)
  refine List.countP_mono_left fun t _ ht => ?_
  simp only [decide_eq_true_eq] at ht ⊢
  omega

/-! ### Logs whose entries have keys -/

section Keyed
variable {α β κ : Type} {log : List α} {time : α → Nat} {p q r : α → Bool}

/-- What meets a condition meets one of two: it is counted by them. -/
theorem countP_le_add (h : ∀ a ∈ log, r a = true → p a = true ∨ q a = true) :
    log.countP r ≤ log.countP p + log.countP q := by
  induction log with
  | nil => exact Nat.zero_le _
  | cons a log ih =>
    have hrest := ih fun b hb => h b (List.mem_cons_of_mem a hb)
    have hfirst := h a List.mem_cons_self
    rw [List.countP_cons, List.countP_cons, List.countP_cons]
    cases hr : r a with
    | false => simp only [Bool.false_eq_true, if_false]; omega
    | true =>
      rcases hfirst hr with hp | hq
      · rw [hp]; simp only [if_true]; omega
      · rw [hq]; simp only [if_true]; omega

/-- Two covers of the parts cover the whole. -/
theorem Covers.union (hp : Covers span now cs ((log.filter p).map time))
    (hq : Covers span now cs' ((log.filter q).map time))
    (h : ∀ a ∈ log, r a = true → p a = true ∨ q a = true) :
    Covers span now (cs ++ cs') ((log.filter r).map time) := by
  intro x hx
  have hp := hp x hx
  have hq := hq x hx
  rw [List.countP_map, List.countP_filter] at hp hq
  rw [List.countP_map, List.countP_filter, List.countP_append]
  refine Nat.le_trans (countP_le_add (p := fun a => _) (q := fun a => _) fun a ha hr => ?_)
    (Nat.add_le_add hp hq)
  rw [Bool.and_eq_true] at hr
  exact (h a ha hr.2).imp (fun hp => Bool.and_eq_true _ _ ▸ ⟨hr.1, hp⟩)
    fun hq => Bool.and_eq_true _ _ ▸ ⟨hr.1, hq⟩

variable [DecidableEq κ] {key : α → κ} {k : κ}

/-- One time covers the entry of one key. -/
theorem covers_key (hnodup : (log.map key).Nodup) (hle : ∀ d ∈ log, key d = k → time d ≤ c) :
    Covers span now [c] ((log.filter fun d => decide (key d = k)).map time) := by
  induction log with
  | nil => exact covers_nil
  | cons d log ih =>
    rw [List.map_cons, List.nodup_cons] at hnodup
    rw [List.filter_cons]
    have hrest := ih hnodup.2 fun e he => hle e (List.mem_cons_of_mem d he)
    by_cases hd : key d = k
    · have hnone : log.filter (fun e => decide (key e = k)) = [] := by
        refine List.filter_eq_nil_iff.2 fun e he hek => hnodup.1 ?_
        rw [hd, ← of_decide_eq_true hek]
        exact List.mem_map_of_mem he
      rw [if_pos (decide_eq_true hd), hnone]
      exact covers_single (hle d List.mem_cons_self hd)
    · rwa [if_neg (by rwa [decide_eq_true_eq])]

/-- A time for each of some keys covers the entries of those keys. -/
theorem covers_keys (hnodup : (log.map key).Nodup) {rs : List β} {key' : β → κ} {time' : β → Nat}
    (hle : ∀ r ∈ rs, ∀ d ∈ log, key d = key' r → time d ≤ time' r) :
    Covers span now (rs.map time')
      ((log.filter fun d => decide (key d ∈ rs.map key')).map time) := by
  induction rs with
  | nil => simpa using covers_nil
  | cons r rs ih =>
    refine (covers_key hnodup fun d hd hk => hle r List.mem_cons_self d hd hk).union
      (ih fun r' hr' => hle r' (List.mem_cons_of_mem r hr')) fun d _ hin => ?_
    simpa using hin

end Keyed

/-! ### Waits

A check that counts the times in the window tells, when it refuses, how long to wait: until the
oldest of them leaves. -/

/-- The times that are less than `span` back. -/
def live (span now : Nat) (times : List Nat) : List Nat :=
  times.filter fun t => decide (now - t < span)

/-- A wait is exact if what is waited for holds at its end, and at no time before. -/
structure ExactWait (admits : Nat → Prop) (now wait : Nat) : Prop where
  ends : admits (now + wait)
  needed : ∀ t, now ≤ t → t < now + wait → ¬admits t

theorem ExactWait.congr {p q : Nat → Prop} {wait : Nat} (h : ∀ x, now ≤ x → (p x ↔ q x)) :
    ExactWait p now wait ↔ ExactWait q now wait :=
  ⟨fun hw => ⟨(h _ (Nat.le_add_right _ _)).1 hw.ends, fun x hx hb hq => hw.needed x hx hb ((h x hx).2 hq)⟩,
    fun hw => ⟨(h _ (Nat.le_add_right _ _)).2 hw.ends, fun x hx hb hp => hw.needed x hx hb ((h x hx).1 hp)⟩⟩

theorem live_live (hle : now ≤ now') : live span now' (live span now times) = live span now' times := by
  rw [live, live, List.filter_filter, live]
  refine List.filter_congr fun t _ => ?_
  by_cases h : now' - t < span
  · have hearlier : now - t < span := by omega
    simp [h, hearlier]
  · simp [h]

/-- Until one of them leaves, the times in the window stay. -/
theorem live_same (hspan : 0 < span) (hle : now ≤ now')
    (h : ∀ t ∈ live span now times, now' < t + span) : live span now' times = live span now times := by
  rw [← live_live hle]
  refine List.filter_eq_self.2 fun t ht => decide_eq_true ?_
  have := h t ht
  omega

/-- Once one has left there are fewer. -/
theorem length_live_lt {t : Nat} (hle : now ≤ now') (ht : t ∈ live span now times)
    (hleft : t + span ≤ now') : (live span now' times).length < (live span now times).length := by
  rw [← live_live hle]
  refine List.length_filter_lt_length_iff_exists.2 ⟨t, ht, ?_⟩
  rw [decide_eq_true_eq]
  omega

/-- A full window has just as many times as it may hold, one of them the oldest. -/
theorem live_full (hn : 0 < n) (hheld : times.length ≤ n) (hfull : n ≤ (live span now times).length) :
    (live span now times).length = n ∧ ∃ oldest, (live span now times).min? = some oldest := by
  refine ⟨Nat.le_antisymm (Nat.le_trans (List.length_filter_le _ _) hheld) hfull, ?_⟩
  cases holdest : (live span now times).min? with
  | none =>
    rw [List.min?_eq_none_iff.1 holdest] at hfull
    exact absurd hfull (Nat.not_le.2 hn)
  | some oldest => exact ⟨oldest, rfl⟩

/-- The wait for the oldest time to leave a full window, in a clock that stops at `last`, is exact if
and only if a time leaves before. -/
theorem exactWait_iff {oldest last : Nat} (hspan : 0 < span)
    (holdest : (live span now times).min? = some oldest) (hfull : (live span now times).length = n) :
    ExactWait (fun x => (live span x times).length < n) now (min (oldest + span) last - now) ↔
      ∃ t ∈ live span now times, t + span ≤ last := by
  obtain ⟨hmem, hleast⟩ := List.min?_eq_some_iff.1 holdest
  have hin : now < oldest + span := by
    have := of_decide_eq_true (List.mem_filter.1 hmem).2
    omega
  have hstays : ∀ x, now ≤ x → x < oldest + span → ¬(live span x times).length < n := by
    intro x hx hbefore
    rw [live_same hspan hx fun t ht => Nat.lt_of_lt_of_le hbefore (Nat.add_le_add_right (hleast t ht) _),
      hfull]
    exact Nat.lt_irrefl n
  constructor
  · intro h
    refine ⟨oldest, hmem, ?_⟩
    by_contra hlate
    exact hstays _ (Nat.le_add_right _ _) (by omega) h.ends
  · rintro ⟨t, ht, hlast⟩
    have := hleast t ht
    refine ⟨?_, fun x hx hbefore => hstays x hx (by omega)⟩
    exact hfull ▸ length_live_lt (by omega) hmem (by omega)

end StshProtocol.Foundation.Window
