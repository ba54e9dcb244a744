import StshProtocol.Foundation.StableMap

/-! Reading the keys of a map that grows, page by page.

A page is the next keys after a cursor, up to a limit, and the cursor of the next page is the last
key of this one; the walk ends with the first page that is short. Between two pages keys may come in
anywhere, before the cursor and behind it, but none goes. What was there when the walk began is then
read, each key once and in order (`Walked.complete`), and the walk ends once no more keys come
(`walk_ends`). -/
namespace StshProtocol.Foundation.GrowingWalk

variable {κ ν : Type} [Ord κ] [Std.TransOrd κ]

/-- The keys after the cursor. -/
def keysAfter (m : StableMap κ ν) (after : Option κ) : List κ := (m.entriesAfter after).map Prod.fst

/-- The walk over the maps there are at its pages: the keys it has read, and the number of its last
page. It gives nothing if it does not end within its fuel. -/
def walk (limit : Nat) (maps : Nat → StableMap κ ν) : Nat → Nat → Option κ → Option (List κ × Nat)
  | 0, _, _ => none
  | fuel + 1, i, after =>
    let page := (keysAfter (maps i) after).take limit
    if page.length < limit then some (page, i)
    else (walk limit maps fuel (i + 1) page.getLast?).map fun w => (page ++ w.1, w.2)

variable {m : StableMap κ ν} {maps : Nat → StableMap κ ν} {after : Option κ} {limit fuel i : Nat}

theorem keysAfter_sorted : (keysAfter m after).Pairwise fun a b => compare a b = .lt :=
  List.pairwise_map.2 (m.entriesAfter_sorted after)

theorem keysAfter_none : keysAfter m none = m.keys := Std.ExtTreeMap.map_fst_toList_eq_keys

variable [Std.LawfulEqOrd κ]

theorem mem_keysAfter {k : κ} : k ∈ keysAfter m after ↔ k ∈ m ∧ ∀ l ∈ after, compare l k = .lt := by
  rw [keysAfter, List.mem_map, Std.ExtTreeMap.mem_iff_contains, StableMap.contains_iff]
  constructor
  · rintro ⟨⟨k, v⟩, he, rfl⟩
    obtain ⟨hv, hlt⟩ := StableMap.mem_entriesAfter.1 he
    exact ⟨⟨v, hv⟩, hlt⟩
  · rintro ⟨⟨v, hv⟩, hlt⟩
    exact ⟨(k, v), StableMap.mem_entriesAfter.2 ⟨hv, hlt⟩, rfl⟩

/-- A full page is not empty, and what comes after its last key is what it left. -/
theorem keysAfter_page (hlimit : 0 < limit) (hfull : ¬((keysAfter m after).take limit).length < limit) :
    ∃ front last, (keysAfter m after).take limit = front ++ [last] ∧
      keysAfter m (some last) = (keysAfter m after).drop limit := by
  rcases List.eq_nil_or_concat ((keysAfter m after).take limit) with hnil | ⟨front, last, hpage⟩
  · rw [hnil] at hfull
    exact absurd hlimit hfull
  · rw [List.concat_eq_append] at hpage
    refine ⟨front, last, hpage, ?_⟩
    have hsplit : keysAfter m after = front ++ last :: (keysAfter m after).drop limit := by
      have h := List.take_append_drop limit (keysAfter m after)
      rw [hpage, List.append_assoc] at h
      exact h.symm
    obtain ⟨init, back, hentries, hinit, hback⟩ := List.map_eq_append_iff.1 hsplit
    obtain ⟨⟨k, v⟩, rest, rfl, rfl, hrest⟩ := List.map_eq_cons_iff.1 hback
    rw [keysAfter, StableMap.entriesAfter_split hentries, hrest]

/-- What a walk has read, of the maps there were: from the map of its first page to that of its
last. -/
structure Walked (maps : Nat → StableMap κ ν) (i : Nat) (after : Option κ) (keys : List κ)
    (last : Nat) : Prop where
  sorted : keys.Pairwise fun a b => compare a b = .lt
  later : ∀ k ∈ keys, ∀ l ∈ after, compare l k = .lt
  started : i ≤ last
  sound : ∀ k ∈ keys, k ∈ maps last
  complete : ∀ k ∈ maps i, (∀ l ∈ after, compare l k = .lt) → k ∈ keys

/-- None of the keys goes. -/
def Grows (maps : Nat → StableMap κ ν) : Prop := ∀ i k, k ∈ maps i → k ∈ maps (i + 1)

omit [Std.LawfulEqOrd κ] in
theorem Grows.le (hgrows : Grows maps) {i j : Nat} (h : i ≤ j) {k : κ} (hk : k ∈ maps i) :
    k ∈ maps j := by
  induction h with
  | refl => exact hk
  | step _ ih => exact hgrows _ k ih

theorem walk_walked (hlimit : 0 < limit) (hgrows : Grows maps) {keys : List κ} {last : Nat}
    (h : walk limit maps fuel i after = some (keys, last)) : Walked maps i after keys last := by
  induction fuel generalizing i after keys with
  | zero => exact nomatch h
  | succ fuel ih =>
    rw [walk] at h
    by_cases hshort : ((keysAfter (maps i) after).take limit).length < limit
    · rw [if_pos hshort, Option.some.injEq, Prod.mk.injEq] at h
      obtain ⟨rfl, rfl⟩ := h
      have hall : (keysAfter (maps i) after).take limit = keysAfter (maps i) after := by
        rw [List.length_take] at hshort
        exact List.take_of_length_le (by omega)
      rw [hall]
      exact ⟨keysAfter_sorted, fun k hk => (mem_keysAfter.1 hk).2, Nat.le_refl _,
        fun k hk => (mem_keysAfter.1 hk).1, fun k hk hlater => mem_keysAfter.2 ⟨hk, hlater⟩⟩
    · rw [if_neg hshort] at h
      obtain ⟨⟨keys', last'⟩, hrest, h⟩ := Option.map_eq_some_iff.1 h
      obtain ⟨rfl, rfl⟩ := Prod.mk.inj h
      obtain ⟨front, c, hpage, -⟩ := keysAfter_page hlimit hshort
      rw [hpage, List.getLast?_concat] at hrest
      have w := ih hrest
      have hfront : ∀ k ∈ front ++ [c], k ∈ keysAfter (maps i) after := fun k hk =>
        List.mem_of_mem_take (hpage ▸ hk)
      have hsorted : (front ++ [c]).Pairwise fun a b => compare a b = .lt :=
        hpage ▸ keysAfter_sorted.sublist (List.take_sublist _ _)
      have hc : ∀ k ∈ front, compare k c = .lt := fun k hk =>
        (List.pairwise_append.1 hsorted).2.2 k hk c List.mem_cons_self
      have hlater : ∀ k ∈ front ++ [c], ∀ k' ∈ keys', compare k k' = .lt := by
        intro k hk k' hk'
        have hck := w.later k' hk' c rfl
        rcases List.mem_append.1 hk with hk | hk
        · exact Std.TransCmp.lt_trans (hc k hk) hck
        · rw [List.mem_singleton.1 hk]
          exact hck
      rw [hpage]
      refine ⟨?_, ?_, by have := w.started; omega, ?_, ?_⟩
      · exact List.pairwise_append.2 ⟨hsorted, w.sorted, hlater⟩
      · intro k hk l hl
        rcases List.mem_append.1 hk with hk | hk
        · exact (mem_keysAfter.1 (hfront k hk)).2 l hl
        · have hcl := (mem_keysAfter.1 (hfront c (List.mem_append_right _ List.mem_cons_self))).2 l hl
          exact Std.TransCmp.lt_trans hcl (w.later k hk c rfl)
      · intro k hk
        rcases List.mem_append.1 hk with hk | hk
        · have hle : i ≤ last' := by have := w.started; omega
          exact hgrows.le hle (mem_keysAfter.1 (hfront k hk)).1
        · exact w.sound k hk
      · intro k hk hafter
        by_cases hck : compare c k = .lt
        · refine List.mem_append_right _ (w.complete k (hgrows i k hk) fun l hl => ?_)
          rw [← Option.some.inj hl]
          exact hck
        · -- a key up to the last of the page is on it
          refine List.mem_append_left _ ?_
          have hmem : k ∈ (front ++ [c]) ++ (keysAfter (maps i) after).drop limit := by
            rw [← hpage, List.take_append_drop]
            exact mem_keysAfter.2 ⟨hk, hafter⟩
          refine (List.mem_append.1 hmem).resolve_right fun hdrop => hck ?_
          have hs : ((front ++ [c]) ++ (keysAfter (maps i) after).drop limit).Pairwise
              fun a b => compare a b = .lt := by
            rw [← hpage, List.take_append_drop]
            exact keysAfter_sorted
          exact (List.pairwise_append.1 hs).2.2 c (List.mem_append_right _ List.mem_cons_self) k hdrop

/-! ### When a walk ends -/

/-- Over a map that stays as it is, every page leaves less. -/
theorem walk_ends_still (hlimit : 0 < limit) (hstill : ∀ j, i ≤ j → maps j = m)
    (hfuel : (keysAfter m after).length < fuel) : ∃ w, walk limit maps fuel i after = some w := by
  induction fuel generalizing i after with
  | zero => exact absurd hfuel (Nat.not_lt_zero _)
  | succ fuel ih =>
    rw [walk, hstill i (Nat.le_refl _)]
    by_cases hshort : ((keysAfter m after).take limit).length < limit
    · rw [if_pos hshort]
      exact ⟨_, rfl⟩
    · rw [if_neg hshort]
      obtain ⟨front, c, hpage, hdrop⟩ := keysAfter_page hlimit hshort
      have hlen : (keysAfter m (some c)).length < fuel := by
        rw [hdrop, List.length_drop]
        rw [List.length_take] at hshort
        omega
      obtain ⟨w, hw⟩ := ih (fun j hj => hstill j (Nat.le_of_succ_le hj)) hlen
      rw [hpage, List.getLast?_concat, hw]
      exact ⟨_, rfl⟩

/-- Once no more keys come, the walk ends. -/
theorem walk_ends {n : Nat} (hlimit : 0 < limit) (hstill : ∀ j, n ≤ j → maps j = m) :
    ∃ fuel w, walk limit maps fuel i after = some w := by
  rcases Nat.le_total n i with hle | hle
  · exact ⟨_, walk_ends_still hlimit (fun j hj => hstill j (Nat.le_trans hle hj)) (Nat.lt_succ_self _)⟩
  · obtain ⟨d, rfl⟩ := Nat.exists_eq_add_of_le hle
    induction d generalizing i after with
    | zero => exact ⟨_, walk_ends_still hlimit (fun j hj => hstill j hj) (Nat.lt_succ_self _)⟩
    | succ d ih =>
      by_cases hshort : ((keysAfter (maps i) after).take limit).length < limit
      · exact ⟨1, _, by rw [walk, if_pos hshort]⟩
      · have hn : i + 1 + d = i + (d + 1) := by omega
        obtain ⟨fuel, w, hw⟩ : ∃ fuel w, walk limit maps fuel (i + 1)
            ((keysAfter (maps i) after).take limit).getLast? = some w := ih (hn ▸ hstill) (by omega)
        refine ⟨fuel + 1, ?_⟩
        rw [walk, if_neg hshort, hw]
        exact ⟨_, rfl⟩

end StshProtocol.Foundation.GrowingWalk
