import StshProtocol.Foundation.StableMap

/-! The sum of the values of a map, and what a write does to it.

A key that is absent counts as zero, so a write is described by the value read at
its key before and after (`total_erase`, `total_insert`), and a map that is
pointwise below another sums to no more (`total_le`). Where the values are not numbers
themselves, `sumBy` adds up a weight of each. -/
namespace StshProtocol.Foundation.StableMap

variable {κ ν : Type} [Ord κ] [Std.TransOrd κ]

/-- The entry at a key, or zero. -/
def amount (m : StableMap κ Nat) (k : κ) : Nat := m[k]?.getD 0

/-- The sum of all values. -/
def total (m : StableMap κ Nat) : Nat := (m.toList.map Prod.snd).sum

theorem toList_nodup (m : StableMap κ ν) : m.toList.Nodup :=
  (m.entriesAfter_sorted none).imp fun {a b} hlt heq => by
    subst heq
    simp at hlt

theorem amount_of_get {m : StableMap κ Nat} {k : κ} {n : Nat} (h : m[k]? = some n) :
    m.amount k = n := by
  rw [amount, h, Option.getD_some]

theorem amount_of_none {m : StableMap κ Nat} {k : κ} (h : m[k]? = none) : m.amount k = 0 := by
  rw [amount, h, Option.getD_none]

@[simp] theorem total_empty : total (∅ : StableMap κ Nat) = 0 := rfl

@[simp] theorem amount_empty (k : κ) : amount (∅ : StableMap κ Nat) k = 0 :=
  amount_of_none (by simp)

variable [Std.LawfulEqOrd κ]

section
variable [DecidableEq κ]

theorem amount_insert (m : StableMap κ Nat) (k a : κ) (n : Nat) :
    amount (m.insert k n) a = if k = a then n else m.amount a := by
  unfold amount
  rw [get_insert]
  split <;> rfl

theorem amount_erase (m : StableMap κ Nat) (k a : κ) :
    amount (m.erase k) a = if k = a then 0 else m.amount a := by
  unfold amount
  rw [get_erase]
  split <;> rfl

end

/-- An inserted entry stands before what is left without its key. -/
theorem toList_insert_perm (m : StableMap κ ν) (k : κ) (v : ν) :
    (m.insert k v).toList.Perm ((k, v) :: (m.erase k).toList) := by
  classical
  have hnew : (k, v) ∉ (m.erase k).toList := by
    rw [mem_toList, get_erase, if_pos rfl]
    nofun
  refine (List.perm_ext_iff_of_nodup (toList_nodup _)
    (List.nodup_cons.2 ⟨hnew, toList_nodup _⟩)).2 ?_
  rintro ⟨a, b⟩
  rw [List.mem_cons, mem_toList, mem_toList, get_insert, get_erase]
  by_cases h : k = a
  · subst h
    simp [eq_comm]
  · simp [h, Ne.symm h]

theorem toList_perm_of_get {m : StableMap κ ν} {k : κ} {v : ν} (h : m[k]? = some v) :
    m.toList.Perm ((k, v) :: (m.erase k).toList) := by
  have hperm := toList_insert_perm m k v
  rwa [insert_of_get h] at hperm

theorem total_insert (m : StableMap κ Nat) (k : κ) (n : Nat) :
    total (m.insert k n) = total (m.erase k) + n := by
  have h := ((toList_insert_perm m k n).map Prod.snd).sum_nat
  rw [List.map_cons, List.sum_cons] at h
  rw [total, h, total, Nat.add_comm]

theorem total_erase (m : StableMap κ Nat) (k : κ) :
    total (m.erase k) + m.amount k = m.total := by
  cases h : m[k]? with
  | none => rw [erase_of_none h, amount_of_none h, Nat.add_zero]
  | some n =>
    have hsum := ((toList_perm_of_get h).map Prod.snd).sum_nat
    rw [List.map_cons, List.sum_cons] at hsum
    rw [amount_of_get h, total, total, hsum, Nat.add_comm]

theorem amount_le_total (m : StableMap κ Nat) (k : κ) : m.amount k ≤ m.total := by
  rw [← total_erase m k]
  exact Nat.le_add_left _ _

theorem total_le {m m' : StableMap κ Nat} (h : ∀ k, m.amount k ≤ m'.amount k) :
    m.total ≤ m'.total := by
  classical
  -- Induction on the number of entries: the same key is taken off both maps.
  generalize hn : m.size = n
  induction n generalizing m m' with
  | zero =>
    rw [Std.ExtTreeMap.eq_empty_iff_size_eq_zero.2 hn]
    exact Nat.zero_le _
  | succ n ih =>
    obtain ⟨⟨k, v⟩, hmem⟩ : ∃ e, e ∈ m.toList := by
      refine List.exists_mem_of_length_pos ?_
      rw [Std.ExtTreeMap.length_toList, hn]
      exact Nat.succ_pos n
    have hk := mem_toList.1 hmem
    have hsize := size_erase_of_get hk
    have hle : total (m.erase k) ≤ total (m'.erase k) := by
      refine ih (fun a => ?_) (by omega)
      rw [amount_erase, amount_erase]
      split
      · exact Nat.le_refl 0
      · exact h a
    rw [← total_erase m k, ← total_erase m' k]
    exact Nat.add_le_add hle (h k)

/-! ### Weights -/

/-- The sum of a weight over all values. -/
def sumBy {ν : Type} (f : ν → Nat) (m : StableMap κ ν) : Nat := (m.toList.map fun e => f e.2).sum

section SumBy
variable {ν : Type} {f g : ν → Nat} {m : StableMap κ ν} {k : κ} {v : ν}

omit [Std.LawfulEqOrd κ] in
@[simp] theorem sumBy_empty : sumBy f (∅ : StableMap κ ν) = 0 := rfl

theorem sumBy_insert_erase (m : StableMap κ ν) (k : κ) (v : ν) :
    sumBy f (m.insert k v) = f v + sumBy f (m.erase k) := by
  have h := ((toList_insert_perm m k v).map fun e => f e.2).sum_nat
  rwa [List.map_cons, List.sum_cons] at h

/-- What was at an erased key no longer counts. -/
theorem sumBy_erase (m : StableMap κ ν) (k : κ) :
    sumBy f (m.erase k) + m[k]?.elim 0 f = sumBy f m := by
  cases h : m[k]? with
  | none =>
    rw [erase_of_none h]
    rfl
  | some v =>
    have hsum := ((toList_perm_of_get h).map fun e => f e.2).sum_nat
    rw [List.map_cons, List.sum_cons] at hsum
    rw [sumBy, sumBy, hsum]
    exact Nat.add_comm _ _

/-- An inserted value counts in place of what was there. -/
theorem sumBy_insert (m : StableMap κ ν) (k : κ) (v : ν) :
    sumBy f (m.insert k v) + m[k]?.elim 0 f = sumBy f m + f v := by
  have h := sumBy_erase (f := f) m k
  rw [sumBy_insert_erase]
  omega

theorem sumBy_congr (h : ∀ (k : κ) (v : ν), m[k]? = some v → f v = g v) : sumBy f m = sumBy g m := by
  refine congrArg List.sum (List.map_congr_left fun e he => ?_)
  exact h e.1 e.2 (mem_toList.1 he)

/-- Two weights that differ at one key only. -/
theorem sumBy_except (hk : m[k]? = some v)
    (h : ∀ (a : κ) (u : ν), a ≠ k → m[a]? = some u → f u = g u) :
    sumBy f m + g v = sumBy g m + f v := by
  classical
  have hf := sumBy_erase (f := f) m k
  have hg := sumBy_erase (f := g) m k
  rw [hk, Option.elim_some] at hf hg
  have hrest : sumBy f (m.erase k) = sumBy g (m.erase k) := sumBy_congr fun a u ha => by
    rw [get_erase] at ha
    split at ha
    · cases ha
    · next hne => exact h a u (Ne.symm hne) ha
  omega

theorem sumBy_le_size {c : Nat} (h : ∀ (k : κ) (v : ν), m[k]? = some v → f v ≤ c) :
    sumBy f m ≤ m.size * c := by
  have hall : ∀ e ∈ m.toList, f e.2 ≤ c := fun e he => h e.1 e.2 (mem_toList.1 he)
  rw [← Std.ExtTreeMap.length_toList, sumBy]
  generalize m.toList = l at hall
  induction l with
  | nil => exact Nat.zero_le _
  | cons e l ih =>
    have hhead := hall e List.mem_cons_self
    have htail := ih fun a ha => hall a (List.mem_cons_of_mem _ ha)
    rw [List.map_cons, List.sum_cons, List.length_cons, Nat.succ_mul]
    omega

theorem le_sumBy (h : m[k]? = some v) : f v ≤ sumBy f m := by
  have hsum := sumBy_erase (f := f) m k
  rw [h] at hsum
  exact hsum ▸ Nat.le_add_left _ _

/-- The values that weigh nothing may be left out. -/
theorem sumBy_filter (p : ν → Bool)
    (h : ∀ (k : κ) (v : ν), m[k]? = some v → p v = false → f v = 0) :
    ((m.toList.filter fun e => p e.2).map fun e => f e.2).sum = sumBy f m := by
  have hall : ∀ e ∈ m.toList, p e.2 = false → f e.2 = 0 := fun e he =>
    h e.1 e.2 (mem_toList.1 he)
  unfold sumBy
  generalize m.toList = l at hall
  induction l with
  | nil => rfl
  | cons e l ih =>
    have htail := ih fun a ha => hall a (List.mem_cons_of_mem _ ha)
    rw [List.filter_cons]
    cases hp : p e.2 with
    | true => simp [htail]
    | false => simp [htail, hall e List.mem_cons_self hp]

end SumBy

omit [Std.LawfulEqOrd κ] in
/-- A map keyed by numbers below a bound has no more rows than that. -/
theorem size_le_of_lt {ν : Type} {m : StableMap Nat ν} {n : Nat}
    (h : ∀ k v, m[k]? = some v → k < n) : m.size ≤ n := by
  rw [← Std.ExtTreeMap.length_keys]
  have hsub : m.keys ⊆ List.range n := fun k hk => by
    obtain ⟨v, hv⟩ := mem_keys.1 hk
    exact List.mem_range.2 (h k v hv)
  have hle := m.keys_nodup.length_le_of_subset hsub
  rwa [List.length_range] at hle

end StshProtocol.Foundation.StableMap
