import Mathlib.Algebra.Order.Ring.Int
import Mathlib.Tactic.Common

/-! Maps kept in the order of their keys, and walking one by key.

A `StableMap` is what a stable B-tree map shows its user: lookups, insertion,
removal, a size, and its entries in ascending key order. A walk that stops and
resumes remembers only the last key it saw; `entriesAfter` is what is left of
the walk then. The two facts a resumed walk rests on are that consuming the
head leaves the tail (`entriesAfter_tail`), and that what happens to keys the
walk has passed does not change what is left (`entriesAfter_congr`). -/
namespace StshProtocol.Foundation

/-- A map with its entries in ascending key order. -/
abbrev StableMap (κ ν : Type) [Ord κ] : Type := Std.ExtTreeMap κ ν compare

namespace StableMap

variable {κ ν : Type} [Ord κ]

/-- The entries a walk that has seen everything up to `last` still has to see. -/
def entriesAfter (m : StableMap κ ν) (last : Option κ) [Std.TransOrd κ] : List (κ × ν) :=
  match last with
  | none => m.toList
  | some k => m.toList.filter fun e => compare k e.1 == .lt

variable [Std.TransOrd κ]

theorem entriesAfter_sorted (m : StableMap κ ν) (last : Option κ) :
    (m.entriesAfter last).Pairwise fun a b => compare a.1 b.1 = .lt := by
  cases last with
  | none => exact Std.ExtTreeMap.ordered_keys_toList
  | some k => exact Std.ExtTreeMap.ordered_keys_toList.filter _

theorem lt_asymm {a b : κ} (h : compare a b = .lt) : compare b a ≠ .lt := by
  rw [Std.OrientedOrd.eq_swap, h]
  nofun

theorem contains_iff {m : StableMap κ ν} {k : κ} : m.contains k = true ↔ ∃ v, m[k]? = some v := by
  rw [Std.ExtTreeMap.contains_eq_isSome_getElem?, Option.isSome_iff_exists]

theorem not_contains_iff {m : StableMap κ ν} {k : κ} : ¬m.contains k = true ↔ m[k]? = none := by
  rw [contains_iff, Option.eq_none_iff_forall_ne_some, not_exists]

theorem size_insert_of_get {m : StableMap κ ν} {k : κ} {v : ν} (w : ν) (h : m[k]? = some v) :
    (m.insert k w).size = m.size := by
  rw [Std.ExtTreeMap.size_insert, if_pos (contains_iff.2 ⟨v, h⟩)]

theorem size_erase_of_get {m : StableMap κ ν} {k : κ} {v : ν} (h : m[k]? = some v) :
    (m.erase k).size + 1 = m.size := by
  have hpos : m.size ≠ 0 := by
    intro h0
    rw [Std.ExtTreeMap.eq_empty_iff_size_eq_zero.2 h0] at h
    simp at h
  rw [Std.ExtTreeMap.size_erase, if_pos (contains_iff.2 ⟨v, h⟩)]
  omega

section Lawful
variable [Std.LawfulEqOrd κ]

@[simp] theorem get_insert [DecidableEq κ] (m : StableMap κ ν) (k a : κ) (v : ν) :
    (m.insert k v)[a]? = if k = a then some v else m[a]? := by
  simp [Std.ExtTreeMap.getElem?_insert]

@[simp] theorem get_erase [DecidableEq κ] (m : StableMap κ ν) (k a : κ) :
    (m.erase k)[a]? = if k = a then none else m[a]? := by
  simp [Std.ExtTreeMap.getElem?_erase]

theorem get_insert_ne {m : StableMap κ ν} {k a : κ} (v : ν) (h : k ≠ a) :
    (m.insert k v)[a]? = m[a]? := by
  classical simp [h]

theorem get_erase_ne {m : StableMap κ ν} {k a : κ} (h : k ≠ a) :
    (m.erase k)[a]? = m[a]? := by
  classical simp [h]

theorem erase_of_none {m : StableMap κ ν} {k : κ} (h : m[k]? = none) : m.erase k = m := by
  classical
  refine Std.ExtTreeMap.ext_getElem? fun a => ?_
  rw [get_erase]
  split
  · next ha => rw [← ha, h]
  · rfl

theorem insert_of_get {m : StableMap κ ν} {k : κ} {v : ν} (h : m[k]? = some v) :
    m.insert k v = m := by
  classical
  refine Std.ExtTreeMap.ext_getElem? fun a => ?_
  rw [get_insert]
  split
  · next ha => rw [← ha, h]
  · rfl

/-- The lookups after a write, with the key in question first. -/
theorem get_insert_at [DecidableEq κ] (m : StableMap κ ν) (k a : κ) (v : ν) :
    (m.insert k v)[a]? = if a = k then some v else m[a]? := by
  rw [get_insert]
  exact ite_congr (propext eq_comm) (fun _ => rfl) fun _ => rfl

theorem get_erase_at [DecidableEq κ] (m : StableMap κ ν) (k a : κ) :
    (m.erase k)[a]? = if a = k then none else m[a]? := by
  rw [get_erase]
  exact ite_congr (propext eq_comm) (fun _ => rfl) fun _ => rfl

theorem mem_toList {m : StableMap κ ν} {k : κ} {v : ν} :
    (k, v) ∈ m.toList ↔ m[k]? = some v :=
  Std.ExtTreeMap.mem_toList_iff_getElem?_eq_some

theorem mem_entriesAfter {m : StableMap κ ν} {last : Option κ} {k : κ} {v : ν} :
    (k, v) ∈ m.entriesAfter last ↔ m[k]? = some v ∧ ∀ l ∈ last, compare l k = .lt := by
  cases last with
  | none => simp [entriesAfter]
  | some l => simp [entriesAfter, beq_iff_eq]

theorem get_of_ahead {m : StableMap κ ν} {last : Option κ} {k : κ} {v : ν} {rest : List (κ × ν)}
    (h : m.entriesAfter last = (k, v) :: rest) : m[k]? = some v :=
  have hmem : (k, v) ∈ m.entriesAfter last := h ▸ List.mem_cons_self
  (mem_entriesAfter.1 hmem).1

theorem entriesAfter_congr {m m' : StableMap κ ν} {last : Option κ}
    (h : ∀ k, (∀ l ∈ last, compare l k = .lt) → m'[k]? = m[k]?) :
    m'.entriesAfter last = m.entriesAfter last := by
  have hnd : ∀ n : StableMap κ ν, (n.entriesAfter last).Nodup := fun n =>
    (n.entriesAfter_sorted last).imp fun {a b} hlt heq => by
      subst heq
      simp at hlt
  refine List.Perm.eq_of_pairwise ?_ (m'.entriesAfter_sorted last) (m.entriesAfter_sorted last) ?_
  · intro a b _ _ hab hba
    exact absurd hba (lt_asymm hab)
  · refine (List.perm_ext_iff_of_nodup (hnd m') (hnd m)).2 ?_
    rintro ⟨k, v⟩
    rw [mem_entriesAfter, mem_entriesAfter]
    constructor
    · rintro ⟨hg, hl⟩
      exact ⟨h k hl ▸ hg, hl⟩
    · rintro ⟨hg, hl⟩
      exact ⟨(h k hl).symm ▸ hg, hl⟩

/-- Having seen the head, a walk has the tail before it. -/
theorem entriesAfter_tail {m : StableMap κ ν} {last : Option κ} {k : κ} {v : ν}
    {rest : List (κ × ν)} (h : m.entriesAfter last = (k, v) :: rest) :
    m.entriesAfter (some k) = rest := by
  have hmem : (k, v) ∈ m.entriesAfter last := h ▸ List.mem_cons_self
  have hk := mem_entriesAfter.1 hmem
  -- Past `k` one is past `last` too, so the walk after `k` filters the walk after `last`.
  have hf : m.entriesAfter (some k) =
      (m.entriesAfter last).filter fun e => compare k e.1 == .lt := by
    cases last with
    | none => rfl
    | some l =>
      simp only [entriesAfter, List.filter_filter]
      refine List.filter_congr fun e _ => ?_
      have hl := hk.2 l rfl
      by_cases hc : compare k e.1 = .lt
      · simp [hc, Std.TransCmp.lt_trans hl hc]
      · simp [hc]
  have hs := h ▸ m.entriesAfter_sorted last
  rw [hf, h, List.filter_cons_of_neg (by simp [Std.ReflCmp.compare_self]), List.filter_eq_self]
  intro e he
  simpa using List.rel_of_pairwise_cons hs he

/-- What is left of a map after one of the entries that were left. -/
theorem entriesAfter_split {m : StableMap κ ν} {last : Option κ} {front rest : List (κ × ν)} {k : κ}
    {v : ν} (h : m.entriesAfter last = front ++ (k, v) :: rest) : m.entriesAfter (some k) = rest := by
  induction front generalizing last with
  | nil => exact entriesAfter_tail h
  | cons e front ih => exact ih (entriesAfter_tail (k := e.1) (v := e.2) h)

/-- A head of the walk can be overwritten or removed without disturbing the tail. -/
theorem entriesAfter_step {m m' : StableMap κ ν} {last : Option κ} {k : κ} {v : ν}
    {rest : List (κ × ν)} (h : m.entriesAfter last = (k, v) :: rest)
    (hown : ∀ a, a ≠ k → m'[a]? = m[a]?) : m'.entriesAfter (some k) = rest := by
  rw [← entriesAfter_tail h]
  refine entriesAfter_congr fun a ha => hown a ?_
  rintro rfl
  simpa using ha a rfl

theorem mem_keys {m : StableMap κ ν} {k : κ} : k ∈ m.keys ↔ ∃ v, m[k]? = some v := by
  rw [Std.ExtTreeMap.mem_keys, ← contains_iff, Std.ExtTreeMap.contains_iff_mem]

omit [Std.LawfulEqOrd κ] in
theorem keys_nodup (m : StableMap κ ν) : m.keys.Nodup := Std.ExtTreeMap.nodup_keys

omit [Std.LawfulEqOrd κ] in
/-- A sorted list of the keys is the list of the keys. -/
theorem keys_eq {m : StableMap κ ν} {keys : List κ}
    (hsorted : keys.Pairwise fun a b => compare a b = .lt) (h : ∀ k, k ∈ m.keys ↔ k ∈ keys) :
    m.keys = keys := by
  have hnodup : keys.Nodup := hsorted.imp fun {a b} hlt heq => by
    rw [heq] at hlt
    simp at hlt
  refine List.Perm.eq_of_pairwise ?_ m.ordered_keys hsorted ?_
  · intro a b _ _ hab hba
    exact absurd hba (lt_asymm hab)
  · exact (List.perm_ext_iff_of_nodup m.keys_nodup hnodup).2 h

omit [Std.LawfulEqOrd κ] in
/-- Two maps with the same keys list them alike. -/
theorem keys_congr {ν' : Type} {m : StableMap κ ν} {m' : StableMap κ ν'}
    (h : ∀ k, k ∈ m.keys ↔ k ∈ m'.keys) : m.keys = m'.keys := keys_eq m'.ordered_keys h

theorem keys_insert_of_get {m : StableMap κ ν} {k : κ} {v : ν} (w : ν) (h : m[k]? = some v) :
    (m.insert k w).keys = m.keys := by
  classical
  refine keys_congr fun a => ?_
  rw [mem_keys, mem_keys, get_insert]
  split
  · rename_i hk
    subst hk
    exact ⟨fun _ => ⟨v, h⟩, fun _ => ⟨w, rfl⟩⟩
  · rfl

theorem mem_foldl_insert {m : StableMap κ ν} {rows : List κ} {k : κ} (v : ν) :
    k ∈ rows.foldl (fun m k => m.insert k v) m ↔ k ∈ rows ∨ k ∈ m := by
  induction rows generalizing m with
  | nil => simp
  | cons r rows ih =>
    rw [List.foldl_cons, ih, List.mem_cons, Std.ExtTreeMap.mem_insert, Std.compare_eq_iff_eq]
    constructor
    · rintro (h | rfl | h)
      · exact .inl (.inr h)
      · exact .inl (.inl rfl)
      · exact .inr h
    · rintro ((rfl | h) | h)
      · exact .inr (.inl rfl)
      · exact .inl h
      · exact .inr (.inr h)

/-- Inserting the members of a list that already covers the map leaves one key for
each of them. -/
theorem size_foldl_insert {m : StableMap κ ν} {rows : List κ} (v : ν) (hnd : rows.Nodup)
    (hm : ∀ k, k ∈ m.keys → k ∈ rows) :
    (rows.foldl (fun m k => m.insert k v) m).size = rows.length := by
  rw [← Std.ExtTreeMap.length_keys]
  refine ((List.perm_ext_iff_of_nodup (keys_nodup _) hnd).2 fun k => ?_).length_eq
  rw [Std.ExtTreeMap.mem_keys, mem_foldl_insert]
  exact ⟨fun h => h.elim id fun h => hm k (Std.ExtTreeMap.mem_keys.2 h), .inl⟩

/-- The insertions of one value leave it at their keys, and the other keys as they were. -/
theorem get_foldl_insert_eq [DecidableEq κ] (m : StableMap κ ν) (rows : List κ) (k : κ) (v : ν) :
    (rows.foldl (fun m k => m.insert k v) m)[k]? = if k ∈ rows then some v else m[k]? := by
  induction rows generalizing m with
  | nil => rfl
  | cons r rows ih =>
    rw [List.foldl_cons, ih, get_insert]
    by_cases hk : k ∈ rows
    · rw [if_pos hk, if_pos (List.mem_cons_of_mem _ hk)]
    · rw [if_neg hk]
      by_cases hr : r = k
      · rw [if_pos hr, if_pos (hr ▸ List.mem_cons_self)]
      · rw [if_neg hr, if_neg (List.not_mem_cons_of_ne_of_not_mem (Ne.symm hr) hk)]

/-- What the insertions of one value leave at a key is that value, or was there. -/
theorem get_foldl_insert {m : StableMap κ ν} {rows : List κ} {k : κ} {v w : ν}
    (h : (rows.foldl (fun m k => m.insert k v) m)[k]? = some w) : w = v ∨ m[k]? = some w := by
  classical
  rw [get_foldl_insert_eq] at h
  split at h
  · exact .inl (Option.some.inj h).symm
  · exact .inr h

end Lawful

end StableMap
end StshProtocol.Foundation
