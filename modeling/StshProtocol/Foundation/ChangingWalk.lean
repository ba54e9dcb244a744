import Mathlib.Algebra.Order.Ring.Int
import Mathlib.Data.List.Nodup

/-! Reading ordered keys page by page while they come and go.

A page is the keys after a cursor, up to a limit, and gives back a cursor only if it is full: the
last of its keys. Between two pages any key may go and any may come. Of full pages in a row the keys
are read in order and none twice, each was there when its page was read, and whoever was there all the
time and is not behind the cursor is among them (`Reads`). If there are fewer than so many keys in all,
there are not so many full pages (`Reads.few`). -/
namespace StshProtocol.Foundation.ChangingWalk

variable {κ : Type} [Ord κ]

/-- The keys after the cursor. -/
def after (keys : List κ) (cursor : Option κ) : List κ :=
  keys.filter fun k => cursor.all fun c => compare c k == .lt

def page (limit : Nat) (keys : List κ) (cursor : Option κ) : List κ := (after keys cursor).take limit

/-- The cursor that a page gives back. -/
def next (limit : Nat) (page : List κ) : Option κ := if page.length = limit then page.getLast? else none

/-- The keys run upwards. -/
def Ascending (keys : List κ) : Prop := keys.Pairwise fun a b => compare a b = .lt

/-- What so many pages have read that all gave a cursor back. -/
inductive Reads (limit : Nat) (keys : Nat → List κ) : Nat → List κ → Option κ → Prop
  | start : Reads limit keys 0 [] none
  | more {n : Nat} {got : List κ} {cursor : Option κ} {c : κ} (h : Reads limit keys n got cursor)
    (hnext : next limit (page limit (keys n) cursor) = some c) :
    Reads limit keys (n + 1) (got ++ page limit (keys n) cursor) (some c)

section
variable {limit n : Nat} {l got : List κ} {keys : Nat → List κ} {cursor : Option κ} {c k : κ}

theorem mem_after : k ∈ after l cursor ↔ k ∈ l ∧ ∀ c ∈ cursor, compare c k = .lt := by
  rw [after, List.mem_filter]
  cases cursor with
  | none => simp
  | some c => simp

theorem Ascending.page (h : Ascending l) : Ascending (page limit l cursor) :=
  (h.filter _).sublist (List.take_sublist _ _)

theorem mem_of_page (h : k ∈ page limit l cursor) : k ∈ l ∧ ∀ c ∈ cursor, compare c k = .lt :=
  mem_after.1 (List.mem_of_mem_take h)

omit [Ord κ] in
theorem next_eq_some (h : next limit l = some c) : l.length = limit ∧ l.getLast? = some c := by
  rw [next] at h
  by_cases hfull : l.length = limit
  · rw [if_pos hfull] at h
    exact ⟨hfull, h⟩
  · rw [if_neg hfull] at h
    cases h

/-- A page without a cursor is all there is. -/
theorem page_of_next_none (hlimit : 0 < limit) (h : next limit (page limit l cursor) = none) :
    page limit l cursor = after l cursor := by
  rw [next] at h
  by_cases hfull : (page limit l cursor).length = limit
  · rw [if_pos hfull, List.getLast?_eq_none_iff] at h
    rw [h, List.length_nil] at hfull
    omega
  · refine List.take_of_length_le ?_
    rw [ChangingWalk.page, List.length_take] at hfull
    omega

/-- What of a full page is not behind its last key is on it. -/
theorem mem_page_of_not_after (hsorted : Ascending l) (hnext : next limit (page limit l cursor) = some c)
    (hk : k ∈ after l cursor) (hnot : compare c k ≠ .lt) : k ∈ page limit l cursor := by
  obtain ⟨-, hlast⟩ := next_eq_some hnext
  have hsplit := List.take_append_drop limit (after l cursor)
  have hall : Ascending (after l cursor) := hsorted.filter _
  rw [← hsplit] at hk hall
  rcases List.mem_append.1 hk with hk | hk
  · exact hk
  · exact absurd ((List.pairwise_append.1 hall).2.2 c (List.mem_of_getLast? hlast) k hk) hnot

variable [Std.TransOrd κ]

/-- Keys that run upwards up to the last, and others behind it, run upwards. -/
theorem Ascending.append {l' : List κ} (h : Ascending l) (h' : Ascending l')
    (hbehind : ∀ c ∈ l.getLast?, ∀ k ∈ l', compare c k = .lt) : Ascending (l ++ l') := by
  refine List.pairwise_append.2 ⟨h, h', fun a ha k hk => ?_⟩
  rcases List.eq_nil_or_concat l with rfl | ⟨front, last, rfl⟩
  · cases ha
  · rw [List.concat_eq_append] at h ha hbehind
    have hlast := hbehind last (by simp) k hk
    rcases List.mem_append.1 ha with ha | ha
    · exact Std.TransCmp.lt_trans ((List.pairwise_append.1 h).2.2 a ha last List.mem_cons_self) hlast
    · rw [List.mem_singleton.1 ha]
      exact hlast

/-- What is read runs upwards, up to the cursor; each key was there when its page was read, and one
that was there all along is read or still ahead. -/
structure Holds (limit : Nat) (keys : Nat → List κ) (n : Nat) (got : List κ) (cursor : Option κ) :
    Prop where
  ascending : Ascending got
  last : got.getLast? = cursor
  length : got.length = n * limit
  sound : ∀ k ∈ got, ∃ i < n, k ∈ keys i
  complete : ∀ k, (∀ i < n, k ∈ keys i) → k ∈ got ∨ ∀ c ∈ cursor, compare c k = .lt

theorem Reads.holds (hkeys : ∀ i, Ascending (keys i)) (h : Reads limit keys n got cursor) :
    Holds limit keys n got cursor := by
  induction h with
  | start => exact ⟨List.Pairwise.nil, rfl, (Nat.zero_mul _).symm, nofun, fun _ _ => .inr nofun⟩
  | @more n got cursor c h hnext ih =>
    obtain ⟨hfull, hlast⟩ := next_eq_some hnext
    refine ⟨ih.ascending.append (hkeys n).page ?_, ?_, ?_, ?_, ?_⟩
    · rw [ih.last]
      exact fun c hc k hk => (mem_of_page hk).2 c hc
    · rw [List.getLast?_append, hlast]
      rfl
    · rw [List.length_append, ih.length, hfull, Nat.succ_mul]
    · intro k hk
      rcases List.mem_append.1 hk with hk | hk
      · obtain ⟨i, hi, hmem⟩ := ih.sound k hk
        exact ⟨i, Nat.lt_succ_of_lt hi, hmem⟩
      · exact ⟨n, Nat.lt_succ_self n, (mem_of_page hk).1⟩
    · intro k hk
      by_cases hbehind : compare c k = .lt
      · exact .inr fun d hd => by rwa [← Option.some.inj hd]
      · rcases ih.complete k fun i hi => hk i (Nat.lt_succ_of_lt hi) with hread | hahead
        · exact .inl (List.mem_append_left _ hread)
        · exact .inl (List.mem_append_right _ (mem_page_of_not_after (hkeys n) hnext
            (mem_after.2 ⟨hk n (Nat.lt_succ_self n), hahead⟩) hbehind))

theorem Reads.ascending_page (hkeys : ∀ i, Ascending (keys i)) (h : Reads limit keys n got cursor) :
    Ascending (got ++ page limit (keys n) cursor) := by
  have hread := h.holds hkeys
  refine hread.ascending.append (hkeys n).page ?_
  rw [hread.last]
  exact fun c hc k hk => (mem_of_page hk).2 c hc

omit [Std.TransOrd κ] in
/-- None of what runs upwards is behind the last. -/
theorem Ascending.eq_or_lt_last (h : Ascending l) (hlast : l.getLast? = some c) (hk : k ∈ l) :
    k = c ∨ compare k c = .lt := by
  rcases List.eq_nil_or_concat l with rfl | ⟨front, last, rfl⟩
  · cases hk
  · rw [List.concat_eq_append] at h hlast hk
    rw [List.getLast?_concat] at hlast
    obtain rfl := Option.some.inj hlast
    rcases List.mem_append.1 hk with hk | hk
    · exact .inr ((List.pairwise_append.1 h).2.2 k hk last List.mem_cons_self)
    · exact .inl (List.mem_singleton.1 hk)

/-- There are never so many keys, of all that are ever there. -/
def Few (bound : Nat) (keys : Nat → List κ) : Prop :=
  ∀ l : List κ, l.Nodup → (∀ k ∈ l, ∃ i, k ∈ keys i) → l.length < bound

theorem Ascending.nodup (h : Ascending l) : l.Nodup := by
  refine h.imp fun {a b} hlt heq => ?_
  rw [heq] at hlt
  exact absurd (hlt.symm.trans Std.ReflCmp.compare_self) nofun

/-- Few keys make few full pages. -/
theorem Reads.few {bound : Nat} (hkeys : ∀ i, Ascending (keys i)) (hfew : Few bound keys)
    (h : Reads limit keys n got cursor) : n * limit < bound := by
  have hread := h.holds hkeys
  rw [← hread.length]
  refine hfew got hread.ascending.nodup fun k hk => ?_
  obtain ⟨i, -, hmem⟩ := hread.sound k hk
  exact ⟨i, hmem⟩

/-- What is read with the page that ends the walk. -/
structure Whole (keys : Nat → List κ) (n : Nat) (got : List κ) : Prop where
  ascending : Ascending got
  sound : ∀ k ∈ got, ∃ i ≤ n, k ∈ keys i
  complete : ∀ k, (∀ i ≤ n, k ∈ keys i) → k ∈ got

theorem Reads.whole (hlimit : 0 < limit) (hkeys : ∀ i, Ascending (keys i))
    (h : Reads limit keys n got cursor) (hnext : next limit (page limit (keys n) cursor) = none) :
    Whole keys n (got ++ page limit (keys n) cursor) := by
  have hread := h.holds hkeys
  refine ⟨h.ascending_page hkeys, ?_, ?_⟩
  · intro k hk
    rcases List.mem_append.1 hk with hk | hk
    · obtain ⟨i, hi, hmem⟩ := hread.sound k hk
      exact ⟨i, Nat.le_of_lt hi, hmem⟩
    · exact ⟨n, Nat.le_refl n, (mem_of_page hk).1⟩
  · intro k hk
    rcases hread.complete k fun i hi => hk i (Nat.le_of_lt hi) with hmem | hahead
    · exact List.mem_append_left _ hmem
    · refine List.mem_append_right _ ?_
      rw [page_of_next_none hlimit hnext]
      exact mem_after.2 ⟨hk n (Nat.le_refl n), hahead⟩

end

/-! ### The records -/

section
variable {κ ρ ν : Type} {keys : Nat → List κ} {recordAt : Nat → κ → Option ρ} {name : κ → ν}
  {nameOf : ρ → ν} {n limit : Nat} {got ks : List κ} {records : List ρ} {cursor : Option κ}

/-- The records of what has been read: each as it was at its page, in order, and none missing that was
there all the time. -/
structure Listing (recordAt : Nat → κ → Option ρ) (name : κ → ν) (nameOf : ρ → ν) (keys : Nat → List κ)
    (n : Nat) (got : List κ) (records : List ρ) : Prop where
  names : (records.map nameOf).Sublist (got.map name)
  sound : ∀ r ∈ records, ∃ i < n, ∃ k ∈ keys i, recordAt i k = some r
  complete : ∀ k ∈ got, (∀ i < n, ∃ r, recordAt i k = some r) →
    ∃ i < n, ∃ r ∈ records, recordAt i k = some r

theorem listing_start : Listing recordAt name nameOf keys 0 [] [] := ⟨List.Sublist.slnil, nofun, nofun⟩

theorem names_filterMap (hname : ∀ i k r, recordAt i k = some r → nameOf r = name k) (i : Nat)
    (ks : List κ) : ((ks.filterMap (recordAt i)).map nameOf).Sublist (ks.map name) := by
  induction ks with
  | nil => exact List.Sublist.slnil
  | cons k ks ih =>
    cases hk : recordAt i k with
    | none =>
      rw [List.filterMap_cons_none hk]
      exact ih.cons _
    | some r =>
      rw [List.filterMap_cons_some hk, List.map_cons, List.map_cons, hname i k r hk]
      exact ih.cons_cons _

theorem Listing.more (h : Listing recordAt name nameOf keys n got records)
    (hname : ∀ i k r, recordAt i k = some r → nameOf r = name k) (hks : ∀ k ∈ ks, k ∈ keys n) :
    Listing recordAt name nameOf keys (n + 1) (got ++ ks) (records ++ ks.filterMap (recordAt n)) where
  names := by
    rw [List.map_append, List.map_append]
    exact h.names.append (names_filterMap hname n ks)
  sound r hr := by
    rcases List.mem_append.1 hr with hr | hr
    · obtain ⟨i, hi, k, hk, hrecord⟩ := h.sound r hr
      exact ⟨i, Nat.lt_succ_of_lt hi, k, hk, hrecord⟩
    · obtain ⟨k, hk, hrecord⟩ := List.mem_filterMap.1 hr
      exact ⟨n, Nat.lt_succ_self n, k, hks k hk, hrecord⟩
  complete k hk hall := by
    rcases List.mem_append.1 hk with hk | hk
    · obtain ⟨i, hi, r, hr, hrecord⟩ := h.complete k hk fun i hi => hall i (Nat.lt_succ_of_lt hi)
      exact ⟨i, Nat.lt_succ_of_lt hi, r, List.mem_append_left _ hr, hrecord⟩
    · obtain ⟨r, hrecord⟩ := hall n (Nat.lt_succ_self n)
      exact ⟨n, Nat.lt_succ_self n, r,
        List.mem_append_right _ (List.mem_filterMap.2 ⟨k, hk, hrecord⟩), hrecord⟩

/-- The records of a whole walk over so many pages. -/
structure Listed (recordAt : Nat → κ → Option ρ) (nameOf : ρ → ν) (keys : Nat → List κ) (calls : Nat)
    (records : List ρ) : Prop where
  once : (records.map nameOf).Nodup
  sound : ∀ r ∈ records, ∃ i < calls, ∃ k ∈ keys i, recordAt i k = some r
  complete : ∀ k, (∀ i < calls, k ∈ keys i ∧ ∃ r, recordAt i k = some r) →
    ∃ i < calls, ∃ r ∈ records, recordAt i k = some r

theorem Listing.listed [Ord κ] [Std.TransOrd κ] (hname : Function.Injective name)
    (hrows : Listing recordAt name nameOf keys (n + 1) got records) (hwhole : Whole keys n got) :
    Listed recordAt nameOf keys (n + 1) records where
  once := hrows.names.nodup (List.Nodup.map hname hwhole.ascending.nodup)
  sound := hrows.sound
  complete k hall :=
    hrows.complete k (hwhole.complete k fun i hi => (hall i (Nat.lt_succ_of_le hi)).1)
      fun i hi => (hall i hi).2

end
end StshProtocol.Foundation.ChangingWalk
