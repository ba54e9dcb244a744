import Mathlib.Data.List.TakeWhile
import StshProtocol.Vetkeys.Sightings

/-! The table of sightings stays exact.

Where each row has its entry in the index and no other entry is there, nothing that is done to
the table traps: reclaiming takes away expired rows only, and a few at most, a full table gives up
a row no other of which expires earlier, and whatever else changes is the caller's own row. -/
namespace StshProtocol.Vetkeys.Sightings
open Foundation ShieldedPool Vesting

/-- When a row expires, as its index entry has it. -/
def stamp (firstSeenAtNs : Nat) : Option Nat := some (satAdd64 firstSeenAtNs sightingRetentionNs)

/-- The rows and the index correspond. -/
def Exact (b : Table) : Prop := Timed.Exact stamp b

variable {nowNs : Nat} {who : PrincipalKey} {b b' : Table} {gone : List PrincipalKey}

/-! ### Reclaiming -/

/-- What reclaiming leaves: a few rows that had expired are gone. -/
structure Reclaimed (nowNs : Nat) (b b' : Table) (gone : List PrincipalKey) : Prop where
  few : gone.length ≤ sightingPruneMax
  expired : ∀ k ∈ gone, ∃ f : Nat, b.rows[k]? = some f ∧ ExpiredAt nowNs f
  taken : ∀ k ∈ gone, b'.rows[k]? = none
  kept : ∀ k ∉ gone, b'.rows[k]? = b.rows[k]?
  size_le : b'.rows.size ≤ b.rows.size

/-- An entry before now is of an expired row. -/
theorem expiredAt_of_stamp {f : Nat} (hnow : nowNs ≤ u64Max)
    (h : satAdd64 f sightingRetentionNs < nowNs) : ExpiredAt nowNs f := by
  unfold satAdd64 at h
  unfold ExpiredAt
  omega

theorem removeVictim_exact (hb : Exact b) {e : TimeKey PrincipalKey} (he : e ∈ b.byTime) :
    removeVictim b e = some ⟨b.rows.erase e.key, b.byTime.erase e⟩ := by
  obtain ⟨f, hf, ht⟩ := (hb e).1 he
  have hkey : b.rows[e.key]?.map (expiryKey e.key) = some e := by
    rw [hf, Option.map_some, expiryKey, Option.some.inj ht]
  rw [removeVictim, if_pos ⟨Std.ExtTreeMap.contains_iff_mem.2 he, hkey⟩]

theorem pruneExpired_exact (hb : Exact b) (hnow : nowNs ≤ u64Max) :
    ∃ b' gone, pruneExpired nowNs b = some b' ∧ Exact b' ∧ Reclaimed nowNs b b' gone := by
  let victims := (b.byTime.keys.takeWhile fun k => Decidable.decide (k.time < nowNs)).take sightingPruneMax
  have hsub : victims.Sublist b.byTime.keys :=
    (List.take_sublist _ _).trans (List.takeWhile_sublist _)
  have hin : ∀ e ∈ victims, e ∈ b.byTime := fun e he => Std.ExtTreeMap.mem_keys.1 (hsub.mem he)
  have hdue : ∀ e ∈ victims, e.time < nowNs := fun e he => by
    simpa using List.mem_takeWhile_imp (List.mem_of_mem_take he)
  refine ⟨b.drop victims, victims.map TimeKey.key,
    hb.foldlM_drop (fun b e hb he => removeVictim_exact hb he)
      (hsub.nodup (StableMap.keys_nodup _)) hin, hb.drop hin,
    ⟨?_, fun k hk => ?_, fun k hk => ?_, fun k hk => ?_, Timed.size_drop_le b victims⟩⟩
  · rw [List.length_map]
    exact List.length_take_le _ _
  · obtain ⟨e, he, rfl⟩ := List.mem_map.1 hk
    obtain ⟨f, hf, ht⟩ := (hb e).1 (hin e he)
    exact ⟨f, hf, expiredAt_of_stamp hnow (Option.some.inj ht ▸ hdue e he)⟩
  · rw [Timed.rows_drop, if_pos hk]
  · rw [Timed.rows_drop, if_neg hk]

theorem Reclaimed.get (h : Reclaimed nowNs b b' gone) {f : Nat} (hk : b'.rows[who]? = some f) :
    b.rows[who]? = some f := by
  by_cases hgone : who ∈ gone
  · exact nomatch (h.taken who hgone).symm.trans hk
  · exact (h.kept who hgone).symm.trans hk

/-! ### Deciding -/

/-- A full table gives up a row no other of which expires earlier. -/
theorem evictOldest_exact (hb : Exact b) (hfull : maxSightings ≤ b.rows.size) :
    ∃ b' victim, ∃ oldest : Nat, evictOldest b = some b' ∧ Exact b' ∧ b.rows[victim]? = some oldest ∧
      (∀ (k : PrincipalKey) (f : Nat), b.rows[k]? = some f →
        satAdd64 oldest sightingRetentionNs ≤ satAdd64 f sightingRetentionNs) ∧
      b'.rows = b.rows.erase victim := by
  have hne : b.byTime.keys ≠ [] := by
    intro hnil
    have hempty : b.rows.toList = [] := by
      refine List.eq_nil_iff_forall_not_mem.2 fun ⟨k, f⟩ hmem => ?_
      have hentry := hb.entry_of_row (StableMap.mem_toList.1 hmem) rfl
      have hkeys := Std.ExtTreeMap.mem_keys.2 hentry
      rw [hnil] at hkeys
      exact nomatch hkeys
    have hsize := Std.ExtTreeMap.length_toList (t := b.rows)
    rw [hempty, List.length_nil] at hsize
    rw [← hsize] at hfull
    exact Nat.not_succ_le_zero _ hfull
  obtain ⟨e, hhead⟩ : ∃ e, b.byTime.keys.head? = some e :=
    ⟨_, List.head?_eq_some_head hne⟩
  have he : e ∈ b.byTime := Std.ExtTreeMap.mem_keys.1 (List.mem_of_head? hhead)
  obtain ⟨oldest, hrow, ht⟩ := (hb e).1 he
  refine ⟨_, e.key, oldest, ?_, hb.remove hrow ht, hrow, fun k f hk => ?_, rfl⟩
  · rw [evictOldest, hhead]
    exact removeVictim_exact hb he
  · have hle := Timed.head_earliest hhead (hb.entry_of_row hk rfl)
    have htime : satAdd64 oldest sightingRetentionNs = e.time := Option.some.inj ht
    rw [htime]
    exact hle

/-- What is decided of a caller, and what that does to the table. -/
inductive Decided (nowNs : Nat) (who : PrincipalKey) (b : Table) : SightingOutcome → Table → Prop
  | kept {f : Nat} (hrow : b.rows[who]? = some f) (hlive : ¬ExpiredAt nowNs f) :
      Decided nowNs who b (judge nowNs f) b
  | renewed {f : Nat} {b' : Table} (hrow : b.rows[who]? = some f) (hexpired : ExpiredAt nowNs f)
      (h : b'.rows = b.rows.insert who nowNs) : Decided nowNs who b .renewed b'
  | inserted {b' : Table} (hnone : b.rows[who]? = none) (hroom : b.rows.size < maxSightings)
      (h : b'.rows = b.rows.insert who nowNs) : Decided nowNs who b .inserted b'
  | evicted {b' : Table} {victim : PrincipalKey} {oldest : Nat} (hnone : b.rows[who]? = none)
      (hfull : maxSightings ≤ b.rows.size) (hvictim : b.rows[victim]? = some oldest)
      (holdest : ∀ (k : PrincipalKey) (f : Nat), b.rows[k]? = some f →
        satAdd64 oldest sightingRetentionNs ≤ satAdd64 f sightingRetentionNs)
      (h : b'.rows = (b.rows.erase victim).insert who nowNs) : Decided nowNs who b .inserted b'

theorem insert_exact (nowNs : Nat) (hb : Exact b) (hnone : b.rows[who]? = none) :
    ∃ b', insert who nowNs b = some b' ∧ Exact b' ∧ b'.rows = b.rows.insert who nowNs := by
  have hindex : ¬b.byTime.contains (expiryKey who nowNs) = true := fun hin =>
    hb.not_entry hnone (Std.ExtTreeMap.contains_iff_mem.1 hin)
  refine ⟨_, ?_, hb.insert hnone rfl, rfl⟩
  rw [insert, if_neg hindex, expiryKey]

theorem size_insert_le (who : PrincipalKey) (nowNs : Nat) (rows : StableMap PrincipalKey Nat) :
    (rows.insert who nowNs).size ≤ rows.size + 1 := Std.ExtTreeMap.size_insert_le

/-- A decision does not trap; it reclaims first, and leaves an exact table no larger than
allowed. -/
theorem decide_exact (hb : Exact b) (hnow : nowNs ≤ u64Max) (hsize : b.rows.size ≤ maxSightings)
    (who : PrincipalKey) :
    ∃ outcome b₁ gone b', decide nowNs who b = some (outcome, b') ∧ Exact b' ∧
      b'.rows.size ≤ maxSightings ∧ Reclaimed nowNs b b₁ gone ∧ Decided nowNs who b₁ outcome b' := by
  obtain ⟨b₁, gone, hprune, hb₁, hreclaimed⟩ := pruneExpired_exact hb hnow
  have hle := Nat.le_trans hreclaimed.size_le hsize
  simp only [decide, hprune, Option.bind_eq_bind, Option.bind_some]
  cases hrow : b₁.rows[who]? with
  | some f =>
    simp only
    by_cases hexpired : ExpiredAt nowNs f
    · have hentry : b₁.byTime.contains (expiryKey who f) = true :=
        Std.ExtTreeMap.contains_iff_mem.2 (hb₁.entry_of_row hrow rfl)
      rw [if_pos hexpired, renew, if_pos hentry]
      refine ⟨_, b₁, gone, _, rfl, hb₁.replace hrow rfl rfl, ?_, hreclaimed,
        .renewed hrow hexpired rfl⟩
      exact Nat.le_trans (Nat.le_of_eq (StableMap.size_insert_of_get nowNs hrow)) hle
    · rw [if_neg hexpired]
      exact ⟨_, b₁, gone, b₁, rfl, hb₁, hle, hreclaimed, .kept hrow hexpired⟩
  | none =>
    simp only
    by_cases hfull : maxSightings ≤ b₁.rows.size
    · rw [if_pos hfull]
      obtain ⟨b₂, victim, oldest, hevict, hb₂, hvictim, holdest, hrows⟩ := evictOldest_exact hb₁ hfull
      have hnone : b₂.rows[who]? = none := by
        classical
        rw [hrows, StableMap.get_erase]
        split
        · rfl
        · exact hrow
      obtain ⟨b₃, hinsert, hb₃, hrows₃⟩ := insert_exact nowNs hb₂ hnone
      rw [hevict]
      simp only [Option.bind_some]
      rw [hinsert]
      rw [hrows] at hrows₃
      refine ⟨_, b₁, gone, b₃, rfl, hb₃, ?_, hreclaimed, .evicted hrow hfull hvictim holdest hrows₃⟩
      have herase := StableMap.size_erase_of_get hvictim
      have hins := size_insert_le who nowNs (b₁.rows.erase victim)
      rw [hrows₃]
      omega
    · rw [if_neg hfull]
      obtain ⟨b₃, hinsert, hb₃, hrows₃⟩ := insert_exact nowNs hb₁ hrow
      rw [hinsert]
      refine ⟨_, b₁, gone, b₃, rfl, hb₃, ?_, hreclaimed,
        .inserted hrow (Nat.lt_of_not_le hfull) hrows₃⟩
      have hins := size_insert_le who nowNs b₁.rows
      rw [hrows₃]
      omega

/-- Clearing a row does not trap, either. -/
theorem clearOnSuccess_exact (hb : Exact b) (who : PrincipalKey) :
    ∃ b', clearOnSuccess who b = some b' ∧ Exact b' ∧ b'.rows = b.rows.erase who := by
  unfold clearOnSuccess
  cases hrow : b.rows[who]? with
  | some f =>
    have hentry : b.byTime.contains (expiryKey who f) = true :=
      Std.ExtTreeMap.contains_iff_mem.2 (hb.entry_of_row hrow rfl)
    simp only
    rw [if_pos hentry]
    exact ⟨_, rfl, hb.remove hrow rfl, rfl⟩
  | none =>
    have hany : ¬(b.byTime.keys.any fun k => k.key == who) = true := by
      rw [List.any_eq_true]
      rintro ⟨e, he, hkey⟩
      obtain rfl := eq_of_beq hkey
      exact hb.not_entry hrow (Std.ExtTreeMap.mem_keys.1 he)
    simp only
    rw [if_neg hany]
    exact ⟨b, rfl, hb, (StableMap.erase_of_none hrow).symm⟩

/-- Where no expiry is too late to be told, the row that is given up has the oldest sighting. -/
theorem oldest_le {oldest f : Nat} (holdest : oldest + sightingRetentionNs ≤ u64Max)
    (hf : f + sightingRetentionNs ≤ u64Max)
    (h : satAdd64 oldest sightingRetentionNs ≤ satAdd64 f sightingRetentionNs) : oldest ≤ f := by
  rw [satAdd64_eq holdest, satAdd64_eq hf] at h
  omega

end StshProtocol.Vetkeys.Sightings
