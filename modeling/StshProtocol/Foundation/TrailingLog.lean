import Mathlib.Algebra.Order.Ring.Int
import Mathlib.Data.List.Count
import Mathlib.Data.List.TakeWhile

/-! Logs that forget what is a window old.

A log that is only ever asked about the last `span` may drop what is older. What it holds `Tracks`
the whole log: at no later time can the two be told apart by what lies in the window that ends then
(`Tracks.push`). Where an entry is added only while fewer than `n` lie in the window that ends with
it, no window of the whole log holds more than `n` of them (`Sparse.push`). A log that is pruned to so
many entries since a horizon, again and again, holds those of the whole log (`prune_push`). -/
namespace StshProtocol.Foundation.TrailingLog

/-! ### Windows -/

/-- No window of this length, open on the left and closed on the right, holds more than `n` of the
times. -/
def Sparse (span n : Nat) (times : List Nat) : Prop :=
  ∀ a, times.countP (fun t => decide (a < t ∧ t ≤ a + span)) ≤ n

section Sparse
variable {span n now : Nat} {times : List Nat}

theorem sparse_nil : Sparse span n [] := fun _ => Nat.zero_le n

/-- A time is added while there is room in the window that ends with it. -/
theorem Sparse.push (h : Sparse span n times)
    (hroom : times.countP (fun t => decide (now - span < t)) < n) : Sparse span n (now :: times) := by
  intro a
  rw [List.countP_cons]
  by_cases hin : a < now ∧ now ≤ a + span
  · rw [if_pos (decide_eq_true hin)]
    refine Nat.succ_le_of_lt (Nat.lt_of_le_of_lt (List.countP_mono_left fun t _ hwindow => ?_) hroom)
    simp only [decide_eq_true_eq] at hwindow ⊢
    omega
  · rw [if_neg (by rwa [decide_eq_true_eq])]
    exact h a

end Sparse

/-! ### What is held -/

section Tracks
variable {α : Type} (time : α → Nat) (span : Nat)

/-- The entry lies in the window that ends now. -/
def fresh (now : Nat) (e : α) : Bool := decide (now - span < time e)

/-- What is held, the oldest first, and the whole log, the latest first, have the same entries in
every window that ends now or later. -/
def Tracks (now : Nat) (held log : List α) : Prop :=
  ∀ later, now ≤ later → held.filter (fresh time span later) = (log.filter (fresh time span later)).reverse

variable {time span} {now later : Nat} {held log : List α} {e : α}

theorem tracks_nil : Tracks time span now ([] : List α) [] := fun _ _ => rfl

theorem Tracks.wait (h : Tracks time span now held log) (hle : now ≤ later) :
    Tracks time span later held log := fun t ht => h t (Nat.le_trans hle ht)

theorem fresh_earlier (hle : now ≤ later) (h : fresh time span later e = true) :
    fresh time span now e = true := by
  simp only [fresh, decide_eq_true_eq] at h ⊢
  omega

/-- What has left the window is not missed later. -/
theorem filter_fresh_fresh (hle : now ≤ later) (l : List α) :
    (l.filter (fresh time span now)).filter (fresh time span later) =
      l.filter (fresh time span later) := by
  rw [List.filter_filter]
  refine List.filter_congr fun e _ => ?_
  cases h : fresh time span later e with
  | false => rfl
  | true => rw [fresh_earlier hle h, Bool.and_true]

theorem Tracks.push (h : Tracks time span now held log) (e : α) :
    Tracks time span now (held.filter (fresh time span now) ++ [e]) (e :: log) := by
  intro later hle
  rw [List.filter_append, filter_fresh_fresh hle, h later hle]
  cases he : fresh time span later e with
  | false => rw [List.filter_cons_of_neg (by simp [he]), List.filter_cons_of_neg (by simp [he]),
      List.filter_nil, List.append_nil]
  | true => rw [List.filter_cons_of_pos he, List.filter_cons_of_pos he, List.filter_nil,
      List.reverse_cons]

/-- Counting what is held is counting the window of the log. -/
theorem Tracks.countP (h : Tracks time span now held log) (p : α → Bool) :
    (held.filter (fresh time span now)).countP p =
      log.countP fun e => p e && fresh time span now e := by
  rw [h now (Nat.le_refl now), List.countP_reverse, List.countP_filter]

theorem Tracks.length (h : Tracks time span now held log) :
    (held.filter (fresh time span now)).length = log.countP (fresh time span now) := by
  rw [h now (Nat.le_refl now), List.length_reverse, List.countP_eq_length_filter]

end Tracks

/-! ### What is held of so many -/

section Capped
variable {α : Type} (time : α → Nat) (n : Nat)

/-- The entry is no earlier than the horizon. -/
def since (horizon : Nat) (e : α) : Bool := decide (horizon ≤ time e)

/-- Of what is held, the oldest first, only the last `n` since the horizon are kept. -/
def prune (horizon : Nat) (held : List α) : List α :=
  (held.filter (since time horizon)).drop ((held.filter (since time horizon)).length - n)

variable {time n} {horizon horizon' : Nat} {held log : List α} {e : α} {p : α → Bool}

/-- Where nothing fails a check before something that meets it, those that meet it come first. -/
theorem filter_eq_takeWhile (h : log.Pairwise fun a b => p b = true → p a = true) :
    log.filter p = log.takeWhile p := by
  induction log with
  | nil => rfl
  | cons a log ih =>
    rw [List.pairwise_cons] at h
    by_cases ha : p a = true
    · rw [List.filter_cons_of_pos ha, List.takeWhile_cons_of_pos ha, ih h.2]
    · rw [List.filter_cons_of_neg ha, List.takeWhile_cons_of_neg ha]
      exact List.filter_eq_nil_iff.2 fun b hb hpb => ha (h.1 b hb hpb)

/-- In a log that runs back in time, taking so many and dropping the old commute. -/
theorem take_filter_since (h : log.Pairwise fun a b => time b < time a) (k : Nat) :
    (log.filter (since time horizon)).take k = (log.take k).filter (since time horizon) := by
  have hpast : log.Pairwise fun a b => since time horizon b = true → since time horizon a = true :=
    h.imp fun hlt hb => decide_eq_true (Nat.le_trans (of_decide_eq_true hb) (Nat.le_of_lt hlt))
  rw [filter_eq_takeWhile hpast, filter_eq_takeWhile (hpast.sublist (List.take_sublist k log)),
    List.take_takeWhile]

/-- The last entry of a log that runs back in time is the earliest. -/
theorem last_le (h : log.Pairwise fun a b => time b < time a) (he : log.getLast? = some e) :
    ∀ a ∈ log, time e ≤ time a := by
  obtain ⟨init, rfl⟩ := List.getLast?_eq_some_iff.1 he
  intro a ha
  rcases List.mem_append.1 ha with hinit | hlast
  · exact Nat.le_of_lt ((List.pairwise_append.1 h).2.2 a hinit e List.mem_cons_self)
  · rw [List.mem_singleton.1 hlast]

theorem reverse_prune : (prune time n horizon held).reverse =
    (held.reverse.filter (since time horizon)).take n := by
  rw [prune, List.filter_reverse, List.take_reverse]

/-- An entry is added, and the rest pruned: of the log that runs back from it, the last `n` since
the horizon are held. -/
theorem prune_push (h : (e :: log).Pairwise fun a b => time b < time a) (hn : 0 < n)
    (hheld : held.reverse = (log.take n).filter (since time horizon)) (hle : horizon ≤ horizon')
    (he : horizon' ≤ time e) :
    (prune time n horizon' (held ++ [e])).reverse =
      ((e :: log).take n).filter (since time horizon') := by
  have hsince : since time horizon' e = true := decide_eq_true he
  have hlog := (List.pairwise_cons.1 h).2
  have hagain : ((log.take n).filter (since time horizon)).filter (since time horizon') =
      (log.take n).filter (since time horizon') := by
    rw [List.filter_filter]
    refine List.filter_congr fun a _ => ?_
    by_cases ha : horizon' ≤ time a
    · simp [since, ha, Nat.le_trans hle ha]
    · simp [since, ha]
  obtain ⟨k, rfl⟩ := Nat.exists_eq_succ_of_ne_zero (Nat.ne_of_gt hn)
  rw [reverse_prune, List.reverse_append, hheld, List.reverse_singleton, List.singleton_append,
    List.filter_cons_of_pos hsince, hagain, List.take_succ_cons, List.take_succ_cons,
    List.filter_cons_of_pos hsince,
    take_filter_since (hlog.sublist (List.take_sublist _ log)), List.take_take,
    Nat.min_eq_left (Nat.le_succ k)]

end Capped
end StshProtocol.Foundation.TrailingLog
