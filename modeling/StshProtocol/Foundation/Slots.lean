import Mathlib.Algebra.Order.Ring.Int
import Mathlib.Data.List.Nodup
import Mathlib.Logic.Relation
import Mathlib.Tactic.Common

/-! Slots written by compare and swap.

A record is written into an empty slot under a fresh identity, and from then on only over itself:
a write keeps the identity and the body and raises the revision. Anyone may keep a copy of a record
for as long as they like. What the rules give a holder of a copy is in `Sound`: while the identity
is in a slot its record has the body of the copy and no lower revision, and it is the copy if the
revisions agree (`Sound.held_eq`). -/
namespace StshProtocol.Foundation

/-- What the slots know records by. -/
structure Tags (ρ ι β : Type) where
  id : ρ → ι
  revision : ρ → Nat
  body : ρ → β

structure Slots (κ ρ ι : Type) where
  slot : κ → Option ρ
  /-- Every copy anyone was given. -/
  held : List ρ
  /-- The identities that were given a slot, and which. -/
  births : List (ι × κ)
  gone : List ι

namespace Slots
variable {κ ρ ι β : Type} {T : Tags ρ ι β} {s t : Slots κ ρ ι}

/-- One atomic operation. -/
inductive Move [DecidableEq κ] (T : Tags ρ ι β) : Slots κ ρ ι → Slots κ ρ ι → Prop where
  | look {s : Slots κ ρ ι} {copies : List ρ}
      (h : ∀ r ∈ copies, r ∈ s.held ∨ ∃ k, s.slot k = some r) :
      Move T s {s with held := copies ++ s.held}
  | claim {s : Slots κ ρ ι} {k : κ} {r : ρ} (hempty : s.slot k = none)
      (hfresh : T.id r ∉ s.births.map Prod.fst) :
      Move T s {s with
        slot := Function.update s.slot k (some r), held := r :: s.held,
        births := (T.id r, k) :: s.births}
  | swap {s : Slots κ ρ ι} {k : κ} {r r' : ρ} (hslot : s.slot k = some r) (hid : T.id r' = T.id r)
      (hbody : T.body r' = T.body r) (hrevision : T.revision r' = T.revision r + 1) :
      Move T s {s with slot := Function.update s.slot k (some r'), held := r' :: s.held}
  | remove {s : Slots κ ρ ι} {k : κ} {r : ρ} (hslot : s.slot k = some r) :
      Move T s {s with slot := Function.update s.slot k none, gone := T.id r :: s.gone}

abbrev Moves [DecidableEq κ] (T : Tags ρ ι β) : Slots κ ρ ι → Slots κ ρ ι → Prop :=
  Relation.ReflTransGen (Move T)

/-- A copy and the record in the slot, of one identity. -/
structure Follows (T : Tags ρ ι β) (copy r : ρ) : Prop where
  body : T.body copy = T.body r
  revision : T.revision copy ≤ T.revision r
  same : T.revision copy = T.revision r → copy = r

structure Sound (T : Tags ρ ι β) (s : Slots κ ρ ι) : Prop where
  /-- No identity was given two slots. -/
  births_nodup : (s.births.map Prod.fst).Nodup
  born : ∀ k r, s.slot k = some r → (T.id r, k) ∈ s.births
  held_born : ∀ h ∈ s.held, T.id h ∈ s.births.map Prod.fst
  held_follows : ∀ h ∈ s.held, ∀ k r, s.slot k = some r → T.id h = T.id r → Follows T h r
  gone_nodup : s.gone.Nodup
  gone_born : ∀ i ∈ s.gone, i ∈ s.births.map Prod.fst
  /-- An identity that was given a slot is there until it is removed. -/
  live_iff : ∀ i k, (i, k) ∈ s.births → (i ∉ s.gone ↔ ∃ r, s.slot k = some r ∧ T.id r = i)

theorem Follows.refl (r : ρ) : Follows T r r := ⟨rfl, Nat.le_refl _, fun _ => rfl⟩

theorem Follows.swapped {h r r' : ρ} (hf : Follows T h r) (hbody : T.body r' = T.body r)
    (hrevision : T.revision r' = T.revision r + 1) : Follows T h r' := by
  have hle := hf.revision
  refine ⟨hf.body.trans hbody.symm, by omega, fun heq => ?_⟩
  omega

/-- An identity is given one slot. -/
theorem births_key {births : List (ι × κ)} (h : (births.map Prod.fst).Nodup) {i : ι} {k k' : κ}
    (hk : (i, k) ∈ births) (hk' : (i, k') ∈ births) : k = k' := by
  have heq := List.inj_on_of_nodup_map h hk hk' rfl
  exact (Prod.mk.inj heq).2

namespace Sound

theorem key_eq (h : Sound T s) {k k' : κ} {r r' : ρ} (hk : s.slot k = some r)
    (hk' : s.slot k' = some r') (hid : T.id r = T.id r') : k = k' :=
  births_key h.births_nodup (h.born k r hk) (hid ▸ h.born k' r' hk')

/-- A copy of the revision in the slot is what is in the slot. -/
theorem held_eq (h : Sound T s) {c r : ρ} {k : κ} (hc : c ∈ s.held) (hk : s.slot k = some r)
    (hid : T.id c = T.id r) (hrevision : T.revision c = T.revision r) : c = r :=
  (h.held_follows c hc k r hk hid).same hrevision

theorem not_gone (h : Sound T s) {k : κ} {r : ρ} (hk : s.slot k = some r) : T.id r ∉ s.gone :=
  (h.live_iff _ k (h.born k r hk)).2 ⟨r, hk, rfl⟩

theorem look (h : Sound T s) {copies : List ρ}
    (hcopies : ∀ r ∈ copies, r ∈ s.held ∨ ∃ k, s.slot k = some r) :
    Sound T {s with held := copies ++ s.held} := by
  refine {h with held_born := ?_, held_follows := ?_}
  · intro c hc
    rcases List.mem_append.1 hc with hc | hc
    · rcases hcopies c hc with hc | ⟨k, hk⟩
      · exact h.held_born c hc
      · exact List.mem_map_of_mem (h.born k c hk)
    · exact h.held_born c hc
  · intro c hc k r hk hid
    rcases List.mem_append.1 hc with hc | hc
    · rcases hcopies c hc with hc | ⟨k', hk'⟩
      · exact h.held_follows c hc k r hk hid
      · obtain rfl := h.key_eq hk' hk hid
        obtain rfl := Option.some.inj (hk'.symm.trans hk)
        exact .refl c
    · exact h.held_follows c hc k r hk hid

/-! ### One operation -/

variable [DecidableEq κ]

/-- What is in a slot after a write to one. -/
theorem slot_cases {slot : κ → Option ρ} {k k' : κ} {v : Option ρ} {r : ρ}
    (h : Function.update slot k v k' = some r) :
    k' = k ∧ v = some r ∨ k' ≠ k ∧ slot k' = some r := by
  by_cases hkk : k' = k
  · subst hkk
    rw [Function.update_self] at h
    exact .inl ⟨rfl, h⟩
  · rw [Function.update_of_ne hkk] at h
    exact .inr ⟨hkk, h⟩

theorem claim (h : Sound T s) {k : κ} {r : ρ} (hempty : s.slot k = none)
    (hfresh : T.id r ∉ s.births.map Prod.fst) :
    Sound T {s with
      slot := Function.update s.slot k (some r), held := r :: s.held,
      births := (T.id r, k) :: s.births} := by
  constructor
  case births_nodup => exact List.nodup_cons.2 ⟨hfresh, h.births_nodup⟩
  case gone_nodup => exact h.gone_nodup
  case gone_born => exact fun i hi => List.mem_cons_of_mem _ (h.gone_born i hi)
  case born =>
    intro k' r' hk'
    rcases slot_cases hk' with ⟨rfl, heq⟩ | ⟨-, hk'⟩
    · obtain rfl := Option.some.inj heq
      exact List.mem_cons_self
    · exact List.mem_cons_of_mem _ (h.born k' r' hk')
  case held_born =>
    intro c hc
    rcases List.mem_cons.1 hc with rfl | hc
    · exact List.mem_cons_self
    · exact List.mem_cons_of_mem _ (h.held_born c hc)
  case held_follows =>
    intro c hc k' r' hk' hid
    rcases slot_cases hk' with ⟨rfl, heq⟩ | ⟨-, hold⟩
    · obtain rfl := Option.some.inj heq
      rcases List.mem_cons.1 hc with rfl | hc
      · exact .refl c
      · exact absurd (hid ▸ h.held_born c hc) hfresh
    · rcases List.mem_cons.1 hc with rfl | hc
      · exact absurd (hid ▸ List.mem_map_of_mem (h.born k' r' hold)) hfresh
      · exact h.held_follows c hc k' r' hold hid
  case live_iff =>
    intro i k' hmem
    rcases List.mem_cons.1 hmem with heq | hmem
    · obtain ⟨rfl, rfl⟩ := Prod.mk.inj heq
      refine iff_of_true (fun hgone => hfresh (h.gone_born _ hgone)) ⟨r, ?_, rfl⟩
      exact Function.update_self ..
    · have hborn : i ∈ s.births.map Prod.fst := List.mem_map_of_mem (f := Prod.fst) hmem
      refine (h.live_iff i k' hmem).trans ⟨fun ⟨r', hr', hid⟩ => ?_, fun ⟨r', hr', hid⟩ => ?_⟩
      · have hkk : k' ≠ k := by
          rintro rfl
          exact nomatch hempty.symm.trans hr'
        exact ⟨r', (Function.update_of_ne hkk ..).trans hr', hid⟩
      · rcases slot_cases hr' with ⟨-, heq⟩ | ⟨-, hr'⟩
        · obtain rfl := Option.some.inj heq
          exact absurd (hid ▸ hborn) hfresh
        · exact ⟨r', hr', hid⟩

theorem swap (h : Sound T s) {k : κ} {r r' : ρ} (hslot : s.slot k = some r)
    (hid : T.id r' = T.id r) (hbody : T.body r' = T.body r)
    (hrevision : T.revision r' = T.revision r + 1) :
    Sound T {s with slot := Function.update s.slot k (some r'), held := r' :: s.held} := by
  refine {h with born := ?_, held_born := ?_, held_follows := ?_, live_iff := ?_}
  · intro k' x hk'
    rcases slot_cases hk' with ⟨rfl, heq⟩ | ⟨-, hk'⟩
    · obtain rfl := Option.some.inj heq
      exact hid ▸ h.born k' r hslot
    · exact h.born k' x hk'
  · intro c hc
    rcases List.mem_cons.1 hc with rfl | hc
    · exact hid ▸ List.mem_map_of_mem (h.born k r hslot)
    · exact h.held_born c hc
  · intro c hc k' x hk' hcx
    rcases slot_cases hk' with ⟨rfl, heq⟩ | ⟨hkk, hold⟩
    · obtain rfl := Option.some.inj heq
      rcases List.mem_cons.1 hc with rfl | hc
      · exact .refl c
      · exact (h.held_follows c hc k' r hslot (hcx.trans hid)).swapped hbody hrevision
    · rcases List.mem_cons.1 hc with rfl | hc
      · exact absurd (h.key_eq hold hslot (hcx.symm.trans hid)) hkk
      · exact h.held_follows c hc k' x hold hcx
  · intro i k' hmem
    refine (h.live_iff i k' hmem).trans ⟨fun ⟨x, hx, hi⟩ => ?_, fun ⟨x, hx, hi⟩ => ?_⟩
    · by_cases hkk : k' = k
      · subst hkk
        obtain rfl := Option.some.inj (hslot.symm.trans hx)
        exact ⟨r', Function.update_self .., hid.trans hi⟩
      · exact ⟨x, (Function.update_of_ne hkk ..).trans hx, hi⟩
    · rcases slot_cases hx with ⟨rfl, heq⟩ | ⟨-, hx⟩
      · obtain rfl := Option.some.inj heq
        exact ⟨r, hslot, hid.symm.trans hi⟩
      · exact ⟨x, hx, hi⟩

theorem remove (h : Sound T s) {k : κ} {r : ρ} (hslot : s.slot k = some r) :
    Sound T {s with slot := Function.update s.slot k none, gone := T.id r :: s.gone} := by
  have hkeep : ∀ {k' r'}, Function.update s.slot k none k' = some r' → k' ≠ k ∧ s.slot k' = some r' := by
    intro k' r' hk'
    rcases slot_cases hk' with ⟨-, heq⟩ | hk'
    · exact nomatch heq
    · exact hk'
  constructor
  case births_nodup => exact h.births_nodup
  case held_born => exact h.held_born
  case born => exact fun k' r' hk' => h.born k' r' (hkeep hk').2
  case held_follows => exact fun c hc k' r' hk' => h.held_follows c hc k' r' (hkeep hk').2
  case gone_nodup => exact List.nodup_cons.2 ⟨h.not_gone hslot, h.gone_nodup⟩
  case gone_born =>
    intro i hi
    rcases List.mem_cons.1 hi with rfl | hi
    · exact List.mem_map_of_mem (h.born k r hslot)
    · exact h.gone_born i hi
  case live_iff =>
    intro i k' hmem
    refine ⟨fun hi => ?_, fun ⟨x, hx, hid⟩ hi => ?_⟩
    · obtain ⟨hne, hi⟩ := not_or.1 (mt List.mem_cons.2 hi)
      obtain ⟨x, hx, hid⟩ := (h.live_iff i k' hmem).1 hi
      have hkk : k' ≠ k := by
        rintro rfl
        obtain rfl := Option.some.inj (hslot.symm.trans hx)
        exact hne hid.symm
      exact ⟨x, (Function.update_of_ne hkk ..).trans hx, hid⟩
    · obtain ⟨hkk, hx⟩ := hkeep hx
      rcases List.mem_cons.1 hi with hi | hi
      · exact hkk (h.key_eq hx hslot (hid.trans hi))
      · exact (h.live_iff i k' hmem).2 ⟨x, hx, hid⟩ hi

theorem move (h : Sound T s) (hmove : Move T s t) : Sound T t := by
  cases hmove with
  | look hcopies => exact h.look hcopies
  | claim hempty hfresh => exact h.claim hempty hfresh
  | swap hslot hid hbody hrevision => exact h.swap hslot hid hbody hrevision
  | remove hslot => exact h.remove hslot

/-! ### Any operations -/

theorem moves (h : Sound T s) (hmoves : Moves T s t) : Sound T t := by
  induction hmoves with
  | refl => exact h
  | tail _ hmove ih => exact ih.move hmove

end Sound

variable [DecidableEq κ]

theorem Move.grows (h : Move T s t) : s.held ⊆ t.held ∧ s.births ⊆ t.births := by
  cases h with
  | look _ => exact ⟨List.subset_append_right _ _, List.Subset.refl _⟩
  | claim _ _ => exact ⟨List.subset_cons_self _ _, List.subset_cons_self _ _⟩
  | swap _ _ _ _ => exact ⟨List.subset_cons_self _ _, List.Subset.refl _⟩
  | remove _ => exact ⟨List.Subset.refl _, List.Subset.refl _⟩

theorem Moves.grows (h : Moves T s t) : s.held ⊆ t.held ∧ s.births ⊆ t.births := by
  induction h with
  | refl => exact ⟨List.Subset.refl _, List.Subset.refl _⟩
  | tail _ hmove ih => exact ⟨List.Subset.trans ih.1 hmove.grows.1, List.Subset.trans ih.2 hmove.grows.2⟩

/-- What becomes of a record: it stays where it is, with its body, and every change raises its
revision. -/
theorem Moves.follows (hs : Sound T s) (h : Moves T s t) {k k' : κ} {r r' : ρ}
    (hheld : r ∈ s.held) (hk : s.slot k = some r) (hk' : t.slot k' = some r')
    (hid : T.id r = T.id r') : k = k' ∧ Follows T r r' := by
  have ht := hs.moves h
  refine ⟨births_key ht.births_nodup (h.grows.2 (hs.born k r hk)) (hid ▸ ht.born k' r' hk'), ?_⟩
  exact ht.held_follows r (h.grows.1 hheld) k' r' hk' hid

end Slots

end StshProtocol.Foundation
