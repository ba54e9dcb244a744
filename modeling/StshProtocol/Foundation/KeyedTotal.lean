import StshProtocol.Foundation.MapTotal

/-! Sums over the rows of a map, by key and value.

Rows inserted under keys that are new add what they weigh (`sumOn_insertAll`), and a map whose
rows another map has, weighing no less, sums to no more (`sumOn_le`). -/
namespace StshProtocol.Foundation.StableMap

variable {κ ν : Type} [Ord κ] [Std.TransOrd κ]

/-- The sum of a weight over all rows. -/
def sumOn (f : κ → ν → Nat) (m : StableMap κ ν) : Nat := (m.toList.map fun e => f e.1 e.2).sum

/-- One row for each member of a list. -/
def insertAll {α : Type} (key : α → κ) (value : α → ν) (rows : List α) (m : StableMap κ ν) :
    StableMap κ ν := rows.foldl (fun m a => m.insert (key a) (value a)) m

@[simp] theorem sumOn_empty (f : κ → ν → Nat) : sumOn f ∅ = 0 := rfl

/-- The keys of the rows that are listed. -/
theorem nodup_map_fst {m : StableMap κ ν} {rows : List (κ × ν)} (h : rows.Sublist m.toList) :
    (rows.map Prod.fst).Nodup := by
  have hkeys : (m.toList.map Prod.fst).Nodup := by
    rw [Std.ExtTreeMap.map_fst_toList_eq_keys]
    exact m.keys_nodup
  exact (h.map Prod.fst).nodup hkeys

variable [Std.LawfulEqOrd κ] {f g : κ → ν → Nat} {m : StableMap κ ν} {k : κ} {v : ν}

theorem sumOn_congr (h : ∀ k v, m[k]? = some v → f k v = g k v) : sumOn f m = sumOn g m :=
  congrArg List.sum (List.map_congr_left fun e he => h e.1 e.2 (mem_toList.1 he))

omit [Std.LawfulEqOrd κ] in
theorem sumOn_add (f g : κ → ν → Nat) (m : StableMap κ ν) :
    sumOn (fun k v => f k v + g k v) m = sumOn f m + sumOn g m := by
  unfold sumOn
  induction m.toList with
  | nil => rfl
  | cons e l ih =>
    simp only [List.map_cons, List.sum_cons] at ih ⊢
    omega

theorem sumOn_eq_zero (h : ∀ k v, m[k]? = some v → f k v = 0) : sumOn f m = 0 := by
  rw [sumOn_congr h]
  unfold sumOn
  induction m.toList with
  | nil => rfl
  | cons e l ih => exact (Nat.zero_add _).trans ih

theorem sumOn_of_get (h : m[k]? = some v) : sumOn f m = f k v + sumOn f (m.erase k) := by
  have hsum := ((toList_perm_of_get h).map fun e => f e.1 e.2).sum_nat
  rwa [List.map_cons, List.sum_cons] at hsum

theorem sumOn_insert (h : m[k]? = none) (v : ν) : sumOn f (m.insert k v) = sumOn f m + f k v := by
  have hsum := ((toList_insert_perm m k v).map fun e => f e.1 e.2).sum_nat
  rw [List.map_cons, List.sum_cons, erase_of_none h] at hsum
  exact hsum.trans (Nat.add_comm _ _)

/-- A map whose rows another map has, weighing no less. -/
theorem sumOn_le {ν' : Type} {f : κ → ν → Nat} {g : κ → ν' → Nat} {m : StableMap κ ν}
    {n : StableMap κ ν'} (h : ∀ k v, m[k]? = some v → ∃ u, n[k]? = some u ∧ f k v ≤ g k u) :
    sumOn f m ≤ sumOn g n := by
  classical
  -- Induction on the number of rows: the same key is taken off both maps.
  generalize hsize : m.size = c
  induction c generalizing m n with
  | zero =>
    rw [Std.ExtTreeMap.eq_empty_iff_size_eq_zero.2 hsize]
    exact Nat.zero_le _
  | succ c ih =>
    obtain ⟨⟨k, v⟩, hmem⟩ : ∃ e, e ∈ m.toList := by
      refine List.exists_mem_of_length_pos ?_
      rw [Std.ExtTreeMap.length_toList, hsize]
      exact Nat.succ_pos c
    have hk := mem_toList.1 hmem
    obtain ⟨u, hu, hle⟩ := h k v hk
    have hrest : sumOn f (m.erase k) ≤ sumOn g (n.erase k) := by
      have hless := size_erase_of_get hk
      refine ih (fun a b hab => ?_) (by omega)
      rw [get_erase] at hab
      split at hab
      · cases hab
      · next hne =>
        obtain ⟨x, hx, hfx⟩ := h a b hab
        exact ⟨x, by rw [get_erase, if_neg hne]; exact hx, hfx⟩
    rw [sumOn_of_get hk, sumOn_of_get hu]
    exact Nat.add_le_add hle hrest

section InsertAll
variable {α : Type} {key : α → κ} {value : α → ν} {rows : List α}

/-- What is found after the insertions was there before, or is one of the rows. -/
theorem insertAll_get (h : (insertAll key value rows m)[k]? = some v) :
    m[k]? = some v ∨ ∃ a ∈ rows, key a = k ∧ value a = v := by
  classical
  induction rows generalizing m with
  | nil => exact .inl h
  | cons a rows ih =>
    rcases ih h with hold | ⟨b, hb, hrow⟩
    · rw [get_insert] at hold
      split at hold
      · next hk => exact .inr ⟨a, List.mem_cons_self, hk, Option.some.inj hold⟩
      · exact .inl hold
    · exact .inr ⟨b, List.mem_cons_of_mem _ hb, hrow⟩

theorem insertAll_other (h : ∀ a ∈ rows, key a ≠ k) : (insertAll key value rows m)[k]? = m[k]? := by
  classical
  induction rows generalizing m with
  | nil => rfl
  | cons a rows ih =>
    refine (ih fun b hb => h b (List.mem_cons_of_mem _ hb)).trans ?_
    exact get_insert_ne _ (h a List.mem_cons_self)

/-- Rows under new keys add what they weigh. -/
theorem sumOn_insertAll (hnodup : (rows.map key).Nodup) (hnew : ∀ a ∈ rows, m[key a]? = none) :
    sumOn f (insertAll key value rows m) =
      sumOn f m + (rows.map fun a => f (key a) (value a)).sum := by
  classical
  induction rows generalizing m with
  | nil => rfl
  | cons a rows ih =>
    rw [List.map_cons, List.nodup_cons] at hnodup
    have htail : ∀ b ∈ rows, (m.insert (key a) (value a))[key b]? = none := fun b hb => by
      have hne : key a ≠ key b := fun heq => hnodup.1 (heq ▸ List.mem_map_of_mem hb)
      rw [get_insert_ne _ hne]
      exact hnew b (List.mem_cons_of_mem _ hb)
    refine (ih hnodup.2 htail).trans ?_
    rw [sumOn_insert (hnew a List.mem_cons_self), List.map_cons, List.sum_cons, Nat.add_assoc]

end InsertAll

end StshProtocol.Foundation.StableMap
