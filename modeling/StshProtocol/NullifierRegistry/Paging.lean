import StshProtocol.NullifierRegistry.Runs
import StshProtocol.Foundation.GrowingWalk

/-! Reading the registry page by page.

A reader asks for page after page, each with the last nullifier it was given as the cursor, until a
page is short. Other messages come between two pages, insertions among them. Page by page this is the
walk of a growing map (`walkNullifiers_eq`), and none of its cursors is refused, because every
nullifier of the registry is canonical. -/
namespace StshProtocol.NullifierRegistry
open Foundation ShieldedPool GrowingWalk

/-- The registry at each page: `script i` is what comes between the page and the next one. -/
def stateAt (script : Nat → List Message) (s : RegistryState) : Nat → RegistryState
  | 0 => s
  | i + 1 => (script i).foldl (fun s m => (step m s).2) (stateAt script s i)

/-- The pages until a short one: all they hold, and the registry at the last. Nothing, if there is no
short page within the fuel. -/
def walkNullifiers (limit : Nat) (states : Nat → RegistryState) :
    Nat → Nat → Option Bytes → Except String (Option (List Bytes × RegistryState))
  | 0, _, _ => .ok none
  | fuel + 1, i, cursor =>
    match getNullifiersPage cursor limit (states i) with
    | .error e => .error e
    | .ok page =>
      if page.length < limit then .ok (some (page, states i))
      else (walkNullifiers limit states fuel (i + 1) page.getLast?).map
        (·.map fun w => (page ++ w.1, w.2))

/-! ### Order -/

theorem lt_of_leLt {as bs : Bytes} (h : MerkleTree.leLt as bs = true) : as < bs := by
  induction as generalizing bs with
  | nil =>
    cases bs with
    | nil => cases h
    | cons b bs => cases h
  | cons a as ih =>
    cases bs with
    | nil => cases h
    | cons b bs =>
      rw [MerkleTree.leLt] at h
      by_cases hlt : a < b
      · exact List.cons_lt_cons_iff.2 (.inl hlt)
      · rw [if_neg hlt] at h
        by_cases hgt : b < a
        · rw [if_pos hgt] at h
          cases h
        · rw [if_neg hgt] at h
          have heq : a = b := UInt8.le_antisymm (UInt8.not_lt.1 hgt) (UInt8.not_lt.1 hlt)
          exact List.cons_lt_cons_iff.2 (.inr ⟨heq, ih h⟩)

/-- The order of the keys is that of their bytes. -/
theorem hashBytes_lt {a b : Bytes32} (h : compare a b = .lt) :
    MerkleTree.hashBytes a < MerkleTree.hashBytes b := by
  have hlen : (MerkleTree.hashBytes a).length = (MerkleTree.hashBytes b).length := by
    rw [MerkleTree.length_hashBytes, MerkleTree.length_hashBytes]
  have hofBe : ∀ x : Bytes32, Bytes.ofBe (MerkleTree.hashBytes x) = x.toNat := fun x =>
    Bytes.ofBe_toBe x.isLt
  refine lt_of_leLt ((leLt_iff hlen).2 ?_)
  rw [hofBe, hofBe]
  exact BitVec.lt_def.1 (compareOfLessAndEq_eq_lt.1 h)

/-! ### One page -/

section Page
variable {pool : Principal} {log : List (Bytes × Nat)} {s : RegistryState} {limit : Nat}

/-- Every key of the registry is accepted as a cursor. -/
theorem Holds.key_canonical (h : Holds pool log s) {key : Bytes32} (hkey : key ∈ s.nullifiers) :
    toNullifierKey (MerkleTree.hashBytes key) = .ok key := by
  obtain ⟨t, ht⟩ := StableMap.contains_iff.1 (Std.ExtTreeMap.mem_iff_contains.1 hkey)
  obtain ⟨nf, rfl, hmem⟩ := (h.entries key t).1 ht
  have hnf := h.canonical _ hmem
  rw [MerkleTree.hashBytes_hash32 hnf.1]
  exact toNullifierKey_ok_iff.2 ⟨hnf, rfl⟩

theorem getNullifiersPage_eq {after : Option Bytes32} (hpos : limit ≠ 0)
    (hcap : limit ≤ maxNullifiersPageSize)
    (hafter : ∀ key ∈ after, toNullifierKey (MerkleTree.hashBytes key) = .ok key) :
    getNullifiersPage (after.map MerkleTree.hashBytes) limit s =
      .ok (((keysAfter s.nullifiers after).take limit).map MerkleTree.hashBytes) := by
  have hstart : (after.map MerkleTree.hashBytes).mapM toNullifierKey = .ok after := by
    cases after with
    | none => rfl
    | some key =>
      show (toNullifierKey (MerkleTree.hashBytes key) >>= fun k => pure (some k)) = _
      rw [hafter key rfl]
      rfl
  rw [getNullifiersPage, if_neg hpos, if_neg (Nat.not_lt.2 hcap), hstart, keysAfter, ← List.map_take,
    List.map_map]
  rfl

end Page

/-! ### The walk -/

section Walk
variable {pool : Principal} {log : List (Bytes × Nat)} {s : RegistryState} {limit : Nat}
  {script : Nat → List Message}

theorem Holds.stateAt (h : Holds pool log s) (script : Nat → List Message) (i : Nat) :
    ∃ log', Holds pool log' (stateAt script s i) := by
  have hfold : ∀ (ms : List Message) (t : RegistryState), (∃ log, Holds pool log t) →
      ∃ log, Holds pool log (ms.foldl (fun s m => (NullifierRegistry.step m s).2) t) := by
    intro ms
    induction ms with
    | nil => exact fun _ h => h
    | cons m ms ih => exact fun t ⟨log, h⟩ => ih _ ⟨_, h.step m⟩
  induction i with
  | zero => exact ⟨log, h⟩
  | succ i ih => exact hfold _ _ ih

/-- What a message leaves has all that was there. -/
theorem Holds.step_keeps (h : Holds pool log s) (m : Message) {key : Bytes32}
    (hkey : key ∈ s.nullifiers) : key ∈ (NullifierRegistry.step m s).2.nullifiers := by
  rcases h.step_cases m with ⟨-, hs⟩ | ⟨-, -, hs⟩
  · rw [hs]
    exact hkey
  · rw [hs, Std.ExtTreeMap.mem_iff_contains, StableMap.contains_iff]
    obtain ⟨t, ht⟩ := StableMap.contains_iff.1 (Std.ExtTreeMap.mem_iff_contains.1 hkey)
    simp only [taken_get, ht]
    split
    · exact ⟨_, rfl⟩
    · exact ⟨_, rfl⟩

theorem Holds.grows (h : Holds pool log s) (script : Nat → List Message) :
    Grows fun i => (NullifierRegistry.stateAt script s i).nullifiers := by
  have hfold : ∀ (ms : List Message) (t : RegistryState), (∃ log, Holds pool log t) → ∀ key,
      key ∈ t.nullifiers → key ∈ (ms.foldl (fun s m => (NullifierRegistry.step m s).2) t).nullifiers := by
    intro ms
    induction ms with
    | nil => exact fun _ _ _ hkey => hkey
    | cons m ms ih =>
      rintro t ⟨log, h⟩ key hkey
      exact ih _ ⟨_, h.step m⟩ key (h.step_keeps m hkey)
  exact fun i key hkey => hfold (script i) _ (h.stateAt script i) key hkey

/-- Page by page, the walk of a growing map. -/
theorem walkNullifiers_eq {states : Nat → RegistryState} {fuel i : Nat} {after : Option Bytes32}
    (hpos : limit ≠ 0) (hcap : limit ≤ maxNullifiersPageSize)
    (hcanonical : ∀ j, ∀ key ∈ (states j).nullifiers,
      toNullifierKey (MerkleTree.hashBytes key) = .ok key)
    (hafter : ∀ key ∈ after, toNullifierKey (MerkleTree.hashBytes key) = .ok key) :
    walkNullifiers limit states fuel i (after.map MerkleTree.hashBytes) =
      .ok ((walk limit (fun j => (states j).nullifiers) fuel i after).map fun w =>
        (w.1.map MerkleTree.hashBytes, states w.2)) := by
  induction fuel generalizing i after with
  | zero => rfl
  | succ fuel ih =>
    rw [walkNullifiers, walk, getNullifiersPage_eq hpos hcap hafter]
    simp only [List.length_map, List.getLast?_map]
    by_cases hshort : ((keysAfter (states i).nullifiers after).take limit).length < limit
    · rw [if_pos hshort, if_pos hshort]
      rfl
    · have hnext : ∀ key ∈ ((keysAfter (states i).nullifiers after).take limit).getLast?,
          toNullifierKey (MerkleTree.hashBytes key) = .ok key := fun key hkey =>
        hcanonical i key (mem_keysAfter.1 (List.mem_of_mem_take (List.mem_of_getLast? hkey))).1
      rw [if_neg hshort, if_neg hshort, ih hnext]
      cases walk limit (fun j => (states j).nullifiers) fuel (i + 1)
        ((keysAfter (states i).nullifiers after).take limit).getLast? with
      | none => rfl
      | some w =>
        simp only [Except.map, Option.map_some, List.map_append]

/-- What a reader gets by walking the registry from no cursor, whatever comes between the pages. -/
structure WalkReads (limit : Nat) (script : Nat → List Message) (s : RegistryState) : Prop where
  /-- No page is refused. -/
  granted : ∀ fuel, ∃ w, walkNullifiers limit (stateAt script s) fuel 0 none = .ok w
  /-- Once nothing new comes, the walk ends. -/
  ends : ∀ n, (∀ j, n ≤ j → (stateAt script s j).nullifiers = (stateAt script s n).nullifiers) →
    ∃ fuel w, walkNullifiers limit (stateAt script s) fuel 0 none = .ok (some w)
  /-- It gives each nullifier once, in order. -/
  sorted : ∀ fuel nfs final, walkNullifiers limit (stateAt script s) fuel 0 none =
    .ok (some (nfs, final)) → nfs.Pairwise (· < ·)
  /-- It gives only members of the set there is at its end. -/
  sound : ∀ fuel nfs final, walkNullifiers limit (stateAt script s) fuel 0 none =
    .ok (some (nfs, final)) → ∀ nf ∈ nfs, Canonical nf ∧ containsNullifier nf final = true
  /-- It gives every nullifier there was when it began. -/
  complete : ∀ fuel nfs final, walkNullifiers limit (stateAt script s) fuel 0 none =
    .ok (some (nfs, final)) → ∀ nf, containsNullifier nf s = true → nf ∈ nfs
  /-- If nothing new comes it gives the set. -/
  exact : (∀ j, (stateAt script s j).nullifiers = s.nullifiers) → ∀ fuel nfs final,
    walkNullifiers limit (stateAt script s) fuel 0 none = .ok (some (nfs, final)) →
      nfs = s.nullifiers.keys.map MerkleTree.hashBytes

theorem mem_of_containsNullifier {nf : Bytes} (h : containsNullifier nf s = true) :
    Canonical nf ∧ MerkleTree.hash32 nf ∈ s.nullifiers := by
  unfold containsNullifier at h
  split at h
  · next key hkey =>
    obtain ⟨hnf, rfl⟩ := toNullifierKey_ok_iff.1 hkey
    exact ⟨hnf, Std.ExtTreeMap.mem_iff_contains.2 h⟩
  · exact nomatch h

/-- A walk of the registry misses nothing, at every page size and with anything in between. -/
theorem walk_reads (run : Run pool log s) (hpos : 1 ≤ limit) (hcap : limit ≤ maxNullifiersPageSize)
    (script : Nat → List Message) : WalkReads limit script s := by
  have h := run.holds
  have hcanonical : ∀ j, ∀ key ∈ (NullifierRegistry.stateAt script s j).nullifiers,
      toNullifierKey (MerkleTree.hashBytes key) = .ok key := by
    intro j key hkey
    obtain ⟨log', h'⟩ := h.stateAt script j
    exact h'.key_canonical hkey
  have heq : ∀ fuel, walkNullifiers limit (NullifierRegistry.stateAt script s) fuel 0 none =
      .ok ((walk limit (fun j => (NullifierRegistry.stateAt script s j).nullifiers) fuel 0 none).map
        fun w => (w.1.map MerkleTree.hashBytes, NullifierRegistry.stateAt script s w.2)) :=
    fun fuel => walkNullifiers_eq (i := 0) (Nat.ne_of_gt hpos) hcap hcanonical
      fun key hkey => absurd hkey (Option.not_mem_none key)
  have hwalked : ∀ {fuel nfs final}, walkNullifiers limit (NullifierRegistry.stateAt script s) fuel 0
      none = .ok (some (nfs, final)) → ∃ keys last, nfs = keys.map MerkleTree.hashBytes ∧
        final = NullifierRegistry.stateAt script s last ∧
        Walked (fun j => (NullifierRegistry.stateAt script s j).nullifiers) 0 none keys last := by
    intro fuel nfs final hw
    rw [heq] at hw
    obtain ⟨⟨keys, last⟩, hwalk, hpair⟩ := Option.map_eq_some_iff.1 (Except.ok.inj hw)
    obtain ⟨rfl, rfl⟩ := Prod.mk.inj hpair
    exact ⟨keys, last, rfl, rfl, walk_walked hpos (h.grows script) hwalk⟩
  refine ⟨fun fuel => ⟨_, heq fuel⟩, fun n hstill => ?_, fun fuel nfs final hw => ?_,
    fun fuel nfs final hw nf hnf => ?_, fun fuel nfs final hw nf hnf => ?_,
    fun hstill fuel nfs final hw => ?_⟩
  · obtain ⟨fuel, w, hw⟩ : ∃ fuel w, walk limit
        (fun j => (NullifierRegistry.stateAt script s j).nullifiers) fuel 0 none = some w :=
      walk_ends hpos hstill
    refine ⟨fuel, (w.1.map MerkleTree.hashBytes, NullifierRegistry.stateAt script s w.2), ?_⟩
    rw [heq, hw]
    rfl
  · obtain ⟨keys, last, rfl, -, w⟩ := hwalked hw
    exact List.pairwise_map.2 (w.sorted.imp hashBytes_lt)
  · obtain ⟨keys, last, rfl, rfl, w⟩ := hwalked hw
    obtain ⟨key, hkey, rfl⟩ := List.mem_map.1 hnf
    have hmem := w.sound key hkey
    have hok := hcanonical last key hmem
    refine ⟨(toNullifierKey_ok_iff.1 hok).1, ?_⟩
    rw [containsNullifier, hok]
    exact Std.ExtTreeMap.mem_iff_contains.1 hmem
  · obtain ⟨keys, last, rfl, rfl, w⟩ := hwalked hw
    obtain ⟨hcan, hmem⟩ := mem_of_containsNullifier hnf
    have hkey := w.complete _ hmem fun l hl => absurd hl (Option.not_mem_none l)
    rw [← MerkleTree.hashBytes_hash32 hcan.1]
    exact List.mem_map_of_mem hkey
  · obtain ⟨keys, last, rfl, rfl, w⟩ := hwalked hw
    have hkeys : s.nullifiers.keys = keys := by
      refine StableMap.keys_eq w.sorted fun key => ?_
      rw [Std.ExtTreeMap.mem_keys]
      exact ⟨fun hkey => w.complete key hkey fun l hl => absurd hl (Option.not_mem_none l), fun hkey => hstill last ▸ w.sound key hkey⟩
    rw [hkeys]

/-- The registry holds 1, and 2 comes after the first page of one. -/
theorem walk_reads_growing : ∃ s, containsNullifier (1 :: List.replicate 31 0) s = true ∧
    WalkReads 1 (fun i => if i = 0 then [⟨6, .anonymous, .insertNullifier (2 :: List.replicate 31 0)⟩]
      else []) s := by
  have run := (Run.installed : Run .anonymous [] (init .anonymous)).step
    ⟨5, .anonymous, .insertNullifier (1 :: List.replicate 31 0)⟩
  exact ⟨_, by decide +kernel, walk_reads run (by decide) (by decide) _⟩

end Walk

end StshProtocol.NullifierRegistry
