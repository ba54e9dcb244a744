import StshProtocol.Foundation.StableMap
import Mathlib.Data.List.Nodup

/-! A map and the index of its rows by time.

A row may carry a time; the index holds one entry for each row that does, the
earliest first, so that what is due is a prefix of the index. The index is `Exact`
when its entries and the rows with a time correspond one to one. Reclaiming a prefix
trusts the index without looking at the rows, and is right because the index is exact:
it takes away the earliest due rows and no other (`Exact.drop`, `Exact.due_earliest`,
`Exact.length_due`). -/
namespace StshProtocol.Foundation

/-- An index entry: ordered by time, then by key. -/
structure TimeKey (κ : Type) where
  time : Nat
  key : κ
  deriving DecidableEq, Repr

namespace TimeKey
variable {κ : Type} [Ord κ]

instance : Ord (TimeKey κ) :=
  ⟨compareLex (compareOn TimeKey.time) (compareOn TimeKey.key)⟩

instance [Std.TransOrd κ] : Std.TransOrd (TimeKey κ) :=
  inferInstanceAs (Std.TransCmp (compareLex (compareOn TimeKey.time) (compareOn TimeKey.key)))

instance : Std.TransOrd (TimeKey (List UInt8)) := inferInstance

instance : Std.TransOrd (TimeKey (BitVec 256)) := inferInstance

theorem compare_eq (a b : TimeKey κ) :
    compare a b = (compare a.time b.time).then (compare a.key b.key) := rfl

instance [Std.LawfulEqOrd κ] : Std.LawfulEqOrd (TimeKey κ) where
  compare_self {a} := by rw [compare_eq]; simp
  eq_of_compare {a b} h := by
    rw [compare_eq, Ordering.then_eq_eq] at h
    obtain ⟨ht, hk⟩ := h
    cases a
    cases b
    simp only [Std.LawfulEqOrd.compare_eq_iff_eq] at ht hk
    rw [ht, hk]

/-- With the least key, a bound separates the times. -/
theorem lt_bound_iff {least : κ} (hleast : ∀ k, compare k least ≠ .lt) (e : TimeKey κ) (t : Nat) :
    compare e ⟨t, least⟩ = .lt ↔ e.time < t := by
  rw [compare_eq, Ordering.then_eq_lt]
  simp only [hleast, and_false, or_false, Nat.compare_eq_lt]

end TimeKey

/-- Rows, and the index of those that carry a time. -/
structure Timed (κ ν : Type) [Ord κ] where
  rows : StableMap κ ν
  byTime : StableMap (TimeKey κ) Unit

namespace Timed
variable {κ ν : Type} [Ord κ] [Std.TransOrd κ]

def empty : Timed κ ν := ⟨∅, ∅⟩

/-- The first `cap` entries before a bound; every entry is before no bound. -/
def due (b : Timed κ ν) (upper : Option (TimeKey κ)) (cap : Nat) : List (TimeKey κ) :=
  (b.byTime.keys.filter fun e => upper.all fun u => compare e u == .lt).take cap

/-- Each of these entries is removed, and the row it names. -/
def drop (b : Timed κ ν) (entries : List (TimeKey κ)) : Timed κ ν :=
  entries.foldl (fun b e => ⟨b.rows.erase e.key, b.byTime.erase e⟩) b

/-- The index holds exactly one entry for each row that carries a time, and no other. -/
def Exact (stamp : ν → Option Nat) (b : Timed κ ν) : Prop :=
  ∀ e : TimeKey κ, e ∈ b.byTime ↔ ∃ v, b.rows[e.key]? = some v ∧ stamp v = some e.time

variable {stamp : ν → Option Nat} {b b' : Timed κ ν} {k : κ} {v w : ν} {t : Nat}
  {e : TimeKey κ} {entries : List (TimeKey κ)}

theorem exact_empty : Exact stamp (empty : Timed κ ν) := by
  intro e
  simp [empty]

/-! ### Writing one row -/

/-- A write of one key that keeps its own entry right keeps the index exact. -/
theorem Exact.write (h : Exact stamp b) (hrows : ∀ a, a ≠ k → b'.rows[a]? = b.rows[a]?)
    (hindex : ∀ e : TimeKey κ, e.key ≠ k → (e ∈ b'.byTime ↔ e ∈ b.byTime))
    (hown : ∀ t, (⟨t, k⟩ : TimeKey κ) ∈ b'.byTime ↔ ∃ v, b'.rows[k]? = some v ∧ stamp v = some t) :
    Exact stamp b' := by
  intro e
  by_cases hk : e.key = k
  · subst hk
    exact hown e.time
  · rw [hindex e hk, hrows e.key hk]
    exact h e

theorem Exact.entry_of_row (h : Exact stamp b) (hk : b.rows[k]? = some v) (ht : stamp v = some t) :
    (⟨t, k⟩ : TimeKey κ) ∈ b.byTime := (h ⟨t, k⟩).2 ⟨v, hk, ht⟩

theorem Exact.time_of_row (h : Exact stamp b) (hk : b.rows[k]? = some v)
    (he : (⟨t, k⟩ : TimeKey κ) ∈ b.byTime) : stamp v = some t := by
  obtain ⟨w, hw, ht⟩ := (h ⟨t, k⟩).1 he
  rw [hk] at hw
  rwa [Option.some.inj hw]

theorem Exact.not_entry (h : Exact stamp b) (hk : b.rows[k]? = none) :
    (⟨t, k⟩ : TimeKey κ) ∉ b.byTime := by
  intro he
  obtain ⟨w, hw, -⟩ := (h ⟨t, k⟩).1 he
  rw [hk] at hw
  nomatch hw

variable [Std.LawfulEqOrd κ]

theorem mem_insert_entry {m : StableMap (TimeKey κ) Unit} {a : TimeKey κ} :
    e ∈ m.insert a () ↔ e = a ∨ e ∈ m := by
  rw [Std.ExtTreeMap.mem_insert, Std.LawfulEqOrd.compare_eq_iff_eq, eq_comm]

theorem mem_erase_entry {m : StableMap (TimeKey κ) Unit} {a : TimeKey κ} :
    e ∈ m.erase a ↔ e ≠ a ∧ e ∈ m := by
  rw [Std.ExtTreeMap.mem_erase, ne_eq, Std.LawfulEqOrd.compare_eq_iff_eq, eq_comm, ne_eq]

/-- A new row comes with its entry. -/
theorem Exact.insert (h : Exact stamp b) (hk : b.rows[k]? = none) (ht : stamp v = some t) :
    Exact stamp ⟨b.rows.insert k v, b.byTime.insert ⟨t, k⟩ ()⟩ := by
  classical
  refine h.write (k := k) (fun a ha => StableMap.get_insert_ne v (Ne.symm ha)) (fun e he => ?_)
    (fun u => ?_)
  · simp only [mem_insert_entry]
    exact or_iff_right fun heq => he (heq ▸ rfl)
  · simp only [mem_insert_entry, h.not_entry hk, or_false, StableMap.get_insert, if_pos,
      Option.some.injEq, exists_eq_left', ht, TimeKey.mk.injEq, and_true]
    exact eq_comm

/-- A row overwritten moves its entry. -/
theorem Exact.replace (h : Exact stamp b) (hk : b.rows[k]? = some w) {t₀ : Nat}
    (hw : stamp w = some t₀) (ht : stamp v = some t) :
    Exact stamp ⟨b.rows.insert k v, (b.byTime.erase ⟨t₀, k⟩).insert ⟨t, k⟩ ()⟩ := by
  classical
  refine h.write (k := k) (fun a ha => StableMap.get_insert_ne v (Ne.symm ha)) (fun e he => ?_)
    (fun u => ?_)
  · simp only [mem_insert_entry, mem_erase_entry]
    rw [or_iff_right fun heq : e = ⟨t, k⟩ => he (heq ▸ rfl)]
    exact and_iff_right fun heq => he (heq ▸ rfl)
  · simp only [mem_insert_entry, mem_erase_entry, StableMap.get_insert, if_pos,
      Option.some.injEq, exists_eq_left', ht, TimeKey.mk.injEq, and_true, ne_eq]
    constructor
    · rintro (rfl | ⟨hne, he⟩)
      · rfl
      · exact absurd (Option.some.inj ((h.time_of_row hk he).symm.trans hw)) hne
    · exact fun h => .inl h.symm

/-- A row overwritten under the same time leaves the index as it is. -/
theorem Exact.update (h : Exact stamp b) (hk : b.rows[k]? = some w) (ht : stamp v = stamp w) :
    Exact stamp ⟨b.rows.insert k v, b.byTime⟩ := by
  classical
  refine h.write (k := k) (fun a ha => StableMap.get_insert_ne v (Ne.symm ha)) (fun e _ => Iff.rfl)
    (fun u => ?_)
  rw [h ⟨u, k⟩]
  simp only [StableMap.get_insert, if_pos, Option.some.injEq, exists_eq_left', hk, ht]

/-- A row removed takes its entry with it. -/
theorem Exact.remove (h : Exact stamp b) (hk : b.rows[k]? = some w) (hw : stamp w = some t) :
    Exact stamp ⟨b.rows.erase k, b.byTime.erase ⟨t, k⟩⟩ := by
  classical
  refine h.write (k := k) (fun a ha => StableMap.get_erase_ne (Ne.symm ha)) (fun e he => ?_)
    (fun u => ?_)
  · simp only [mem_erase_entry]
    exact and_iff_right fun heq => he (heq ▸ rfl)
  · simp only [mem_erase_entry, StableMap.get_erase, if_pos, reduceCtorEq, false_and, exists_false,
      iff_false, not_and, ne_eq, TimeKey.mk.injEq, and_true]
    exact fun hne he => hne (Option.some.inj ((h.time_of_row hk he).symm.trans hw))

/-! ### Reclaiming entry by entry -/

/-- Entries of an exact index, each removed with its row where the two match, are dropped. -/
theorem Exact.foldlM_drop {take : Timed κ ν → TimeKey κ → Option (Timed κ ν)}
    (htake : ∀ (b : Timed κ ν) (e : TimeKey κ), Exact stamp b → e ∈ b.byTime →
      take b e = some ⟨b.rows.erase e.key, b.byTime.erase e⟩)
    (h : Exact stamp b) (hnodup : entries.Nodup) (hin : ∀ e ∈ entries, e ∈ b.byTime) :
    entries.foldlM take b = some (b.drop entries) := by
  induction entries generalizing b with
  | nil => rfl
  | cons e rest ih =>
    have he := hin e List.mem_cons_self
    obtain ⟨v, hv, ht⟩ := (h e).1 he
    obtain ⟨hnot, hrest⟩ := List.nodup_cons.1 hnodup
    rw [List.foldlM_cons, htake b e h he]
    refine ih (h.remove hv ht) hrest fun e' he' => mem_erase_entry.2 ⟨?_, ?_⟩
    · rintro rfl
      exact hnot he'
    · exact hin e' (List.mem_cons_of_mem _ he')

/-! ### Reclaiming a prefix -/

theorem rows_drop [DecidableEq κ] (b : Timed κ ν) (entries : List (TimeKey κ)) (k : κ) :
    (b.drop entries).rows[k]? = if k ∈ entries.map TimeKey.key then none else b.rows[k]? := by
  induction entries generalizing b with
  | nil => rfl
  | cons e rest ih =>
    have hstep : b.drop (e :: rest) = (⟨b.rows.erase e.key, b.byTime.erase e⟩ : Timed κ ν).drop rest :=
      rfl
    rw [hstep, ih, List.map_cons, StableMap.get_erase]
    by_cases hk : e.key = k
    · simp [hk]
    · simp [hk, Ne.symm hk]

theorem mem_byTime_drop (b : Timed κ ν) (entries : List (TimeKey κ)) (e : TimeKey κ) :
    e ∈ (b.drop entries).byTime ↔ e ∉ entries ∧ e ∈ b.byTime := by
  induction entries generalizing b with
  | nil => simp [drop]
  | cons a rest ih =>
    have hstep : b.drop (a :: rest) = (⟨b.rows.erase a.key, b.byTime.erase a⟩ : Timed κ ν).drop rest :=
      rfl
    rw [hstep, ih, mem_erase_entry, List.mem_cons, not_or]
    exact ⟨fun ⟨hr, hne, hm⟩ => ⟨⟨hne, hr⟩, hm⟩, fun ⟨⟨hne, hr⟩, hm⟩ => ⟨hr, hne, hm⟩⟩

/-- Removing entries of an exact index removes their rows and no others. -/
theorem Exact.drop (h : Exact stamp b) (hin : ∀ e ∈ entries, e ∈ b.byTime) :
    Exact stamp (b.drop entries) := by
  classical
  intro e
  rw [mem_byTime_drop, rows_drop]
  by_cases hk : e.key ∈ entries.map TimeKey.key
  · rw [if_pos hk]
    simp only [reduceCtorEq, false_and, exists_false, iff_false, not_and]
    intro hne he
    obtain ⟨a, ha, hak⟩ := List.mem_map.1 hk
    obtain ⟨w, hw, hwt⟩ := (h a).1 (hin a ha)
    obtain ⟨u, hu, hut⟩ := (h e).1 he
    rw [hak, hu] at hw
    rw [← Option.some.inj hw, hut] at hwt
    have hea : e = a := by
      cases e
      cases a
      simp_all
    exact hne (hea ▸ ha)
  · rw [if_neg hk, h e]
    refine and_iff_right fun he => hk (List.mem_map_of_mem he)

variable {upper : Option (TimeKey κ)} {cap : Nat}

omit [Std.LawfulEqOrd κ] in
theorem due_sublist (b : Timed κ ν) (upper : Option (TimeKey κ)) (cap : Nat) :
    (b.due upper cap).Sublist b.byTime.keys :=
  (List.take_sublist _ _).trans List.filter_sublist

theorem mem_byTime_of_due (h : e ∈ b.due upper cap) : e ∈ b.byTime :=
  Std.ExtTreeMap.mem_keys.1 ((b.due_sublist upper cap).mem h)

omit [Std.LawfulEqOrd κ] in
theorem before_of_due (h : e ∈ b.due upper cap) : ∀ u ∈ upper, compare e u = .lt := by
  have hf := (List.mem_filter.1 (List.mem_of_mem_take h)).2
  intro u hu
  rw [hu] at hf
  simpa using hf

/-- The first entry is of no later time than any. -/
theorem head_earliest (h : b.byTime.keys.head? = some e) {e' : TimeKey κ} (he' : e' ∈ b.byTime) :
    e.time ≤ e'.time := by
  obtain ⟨rest, hkeys⟩ := List.head?_eq_some_iff.1 h
  have hsorted := b.byTime.ordered_keys
  rw [hkeys] at hsorted
  have hmem := Std.ExtTreeMap.mem_keys.2 he'
  rw [hkeys] at hmem
  rcases List.mem_cons.1 hmem with rfl | hrest
  · exact Nat.le_refl _
  · have hlt := List.rel_of_pairwise_cons hsorted hrest
    rw [TimeKey.compare_eq, Ordering.then_eq_lt] at hlt
    rcases hlt with hlt | ⟨heq, -⟩
    · exact Nat.le_of_lt (Nat.compare_eq_lt.1 hlt)
    · exact Nat.le_of_eq (Nat.compare_eq_eq.1 heq)

omit [Std.LawfulEqOrd κ] in
theorem size_drop_le (b : Timed κ ν) (entries : List (TimeKey κ)) :
    (b.drop entries).rows.size ≤ b.rows.size := by
  induction entries generalizing b with
  | nil => exact Nat.le_refl _
  | cons e rest ih => exact Nat.le_trans (ih _) Std.ExtTreeMap.size_erase_le

/-- Nothing that is left comes before what is taken. -/
theorem due_earliest (he : e ∈ b.due upper cap) {e' : TimeKey κ} (he' : e' ∈ b.byTime)
    (hb : ∀ u ∈ upper, compare e' u = .lt) (hne : e' ∉ b.due upper cap) : compare e e' = .lt := by
  have hsorted : (b.byTime.keys.filter fun e => upper.all fun u => compare e u == .lt).Pairwise
      fun a b => compare a b = .lt := b.byTime.ordered_keys.filter _
  rw [← List.take_append_drop cap (List.filter _ _)] at hsorted
  refine (List.pairwise_append.1 hsorted).2.2 e he e' ?_
  have hmem : e' ∈ b.byTime.keys.filter fun e => upper.all fun u => compare e u == .lt := by
    refine List.mem_filter.2 ⟨Std.ExtTreeMap.mem_keys.2 he', ?_⟩
    cases upper with
    | none => rfl
    | some u => simpa using hb u rfl
  rw [← List.take_append_drop cap (List.filter _ _)] at hmem
  exact (List.mem_append.1 hmem).resolve_left hne

/-- The rows the due entries are taken from: those whose time is before the bound. -/
def expired (stamp : ν → Option Nat) (b : Timed κ ν) (upper : Option (TimeKey κ)) : List κ :=
  (b.rows.toList.filter fun r => (stamp r.2).any fun t =>
    upper.all fun u => compare (⟨t, r.1⟩ : TimeKey κ) u == .lt).map Prod.fst

theorem mem_expired : k ∈ b.expired stamp upper ↔
    ∃ v t, b.rows[k]? = some v ∧ stamp v = some t ∧
      ∀ u ∈ upper, compare (⟨t, k⟩ : TimeKey κ) u = .lt := by
  simp only [expired, List.mem_map, List.mem_filter, Prod.exists, exists_and_right, exists_eq_right]
  constructor
  · rintro ⟨v, hv, hs⟩
    cases ht : stamp v with
    | none => simp [ht] at hs
    | some t =>
      refine ⟨v, t, StableMap.mem_toList.1 hv, ht, fun u hu => ?_⟩
      rw [ht, hu] at hs
      simpa using hs
  · rintro ⟨v, t, hv, ht, hb⟩
    refine ⟨v, StableMap.mem_toList.2 hv, ?_⟩
    rw [ht]
    cases upper with
    | none => rfl
    | some u => simpa using hb u rfl

omit [Std.LawfulEqOrd κ] in
theorem Exact.key_inj (h : Exact stamp b) {e e' : TimeKey κ} (he : e ∈ b.byTime)
    (he' : e' ∈ b.byTime) (hk : e.key = e'.key) : e = e' := by
  obtain ⟨v, hv, ht⟩ := (h e).1 he
  have ht' := h.time_of_row (hk ▸ hv) he'
  rw [ht] at ht'
  cases e
  cases e'
  simp_all

omit [Std.LawfulEqOrd κ] in
theorem expired_nodup : (b.expired stamp upper).Nodup := by
  have hsub : (b.expired stamp upper).Sublist b.rows.keys := by
    rw [← Std.ExtTreeMap.map_fst_toList_eq_keys]
    exact List.filter_sublist.map Prod.fst
  exact hsub.nodup b.rows.keys_nodup

/-- Exactly as many rows are taken as there are expired ones, up to the cap. -/
theorem Exact.length_due (h : Exact stamp b) :
    (b.due upper cap).length = min cap (b.expired stamp upper).length := by
  have hnodup : (b.byTime.keys.filter fun e => upper.all fun u => compare e u == .lt).Nodup :=
    List.filter_sublist.nodup (StableMap.keys_nodup b.byTime)
  have hmem : ∀ e ∈ b.byTime.keys.filter (fun e => upper.all fun u => compare e u == .lt),
      e ∈ b.byTime := fun e he => Std.ExtTreeMap.mem_keys.1 (List.mem_filter.1 he).1
  rw [due, List.length_take, ← List.length_map TimeKey.key]
  refine congrArg (min cap) (List.Perm.length_eq
    ((List.perm_ext_iff_of_nodup ?_ expired_nodup).2 fun k => ?_))
  · exact List.Nodup.map_on (fun e he e' he' hk => h.key_inj (hmem e he) (hmem e' he') hk) hnodup
  · rw [mem_expired, List.mem_map]
    constructor
    · rintro ⟨e, he, rfl⟩
      obtain ⟨v, hv, ht⟩ := (h e).1 (hmem e he)
      refine ⟨v, e.time, hv, ht, fun u hu => ?_⟩
      have hf := (List.mem_filter.1 he).2
      rw [hu] at hf
      simpa using hf
    · rintro ⟨v, t, hv, ht, hb⟩
      refine ⟨⟨t, k⟩, List.mem_filter.2 ⟨Std.ExtTreeMap.mem_keys.2 (h.entry_of_row hv ht), ?_⟩, rfl⟩
      cases upper with
      | none => rfl
      | some u => simpa using hb u rfl

end Timed
end StshProtocol.Foundation
