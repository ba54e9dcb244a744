import StshProtocol.NullifierRegistry.State
import StshProtocol.Foundation.Except
import Mathlib.Data.List.Nodup

/-! Runs of the nullifier registry.

A batch is accepted when its members are canonical, pairwise distinct and new; what a run
has accepted is a log, and the registry is that log (`Holds`). -/
namespace StshProtocol.NullifierRegistry
open Foundation ShieldedPool Handler

inductive Call where
  | insertNullifier (nullifier : Bytes)
  | insertBatch (nullifiers : List Bytes)
  | upgrade

structure Message where
  now : Nat
  caller : Principal
  call : Call

inductive Answer where
  | inserted (r : Except String Unit)
  | upgraded
  | trapped (t : Trap)

/-- The message ends: what it wrote is committed, unless it trapped. -/
def respond (reply : Except String Unit → Answer) (s : RegistryState)
    (r : Except Trap (Except String Unit × RegistryState)) : Answer × RegistryState :=
  match r with
  | .ok (a, t) => (reply a, t)
  | .error trap => (.trapped trap, s)

def step (m : Message) (s : RegistryState) : Answer × RegistryState :=
  match m.call with
  | .insertNullifier nf => respond .inserted s ((insertNullifier m.now m.caller nf).exec s)
  | .insertBatch nfs => respond .inserted s ((insertBatch m.now m.caller nfs).exec s)
  | .upgrade => respond (fun _ => .upgraded) s (NullifierRegistry.upgrade.exec s)

/-- The nullifiers a message offers. -/
def Message.offers (m : Message) : List Bytes :=
  match m.call with
  | .insertNullifier nf => [nf]
  | .insertBatch nfs => nfs
  | .upgrade => []

/-- The nullifiers an answer accepts, with the time of their insertion. -/
def accepted (m : Message) : Answer → List (Bytes × Nat)
  | .inserted (.ok ()) => m.offers.map fun nf => (nf, m.now)
  | _ => []

/-- What was accepted so far, and the state it led to. -/
inductive Run (pool : Principal) : List (Bytes × Nat) → RegistryState → Prop where
  | installed : Run pool [] (init pool)
  | step {log : List (Bytes × Nat)} {s : RegistryState} (run : Run pool log s) (m : Message) :
      Run pool (log ++ accepted m (step m s).1) (step m s).2

/-! ### Canonical encodings -/

/-- The modulus of the BN254 scalar field. -/
def frModulus : Nat :=
  21888242871839275222246405745257275088548364400416034343698204186575808495617

/-- Canonical encodings of a field element: 32 bytes, little-endian, below the modulus. -/
def Canonical (nf : Bytes) : Prop := nf.length = 32 ∧ Bytes.ofLe nf < frModulus

theorem leLt_iff {as bs : Bytes} (h : as.length = bs.length) :
    MerkleTree.leLt as bs = true ↔ Bytes.ofBe as < Bytes.ofBe bs := by
  induction as generalizing bs with
  | nil =>
    obtain rfl := List.eq_nil_of_length_eq_zero h.symm
    simp [MerkleTree.leLt]
  | cons a as ih =>
    cases bs with
    | nil => cases h
    | cons b bs =>
      have hlen : as.length = bs.length := Nat.succ.inj h
      have has := Bytes.ofBe_lt as
      have hbs := Bytes.ofBe_lt bs
      rw [hlen] at has
      rw [MerkleTree.leLt, Bytes.ofBe_cons, Bytes.ofBe_cons, hlen]
      rcases Nat.lt_trichotomy a.toNat b.toNat with hlt | heq | hgt
      · rw [if_pos (UInt8.lt_iff_toNat_lt.2 hlt)]
        have hstep := Nat.mul_le_mul_left (256 ^ bs.length) hlt
        rw [Nat.mul_succ] at hstep
        simp only [true_iff]
        omega
      · obtain rfl := UInt8.toNat_inj.1 heq
        rw [if_neg (UInt8.lt_irrefl a), if_neg (UInt8.lt_irrefl a), ih hlen]
        omega
      · have hstep := Nat.mul_le_mul_left (256 ^ bs.length) hgt
        rw [Nat.mul_succ] at hstep
        rw [if_neg (fun hab => Nat.lt_asymm (UInt8.lt_iff_toNat_lt.1 hab) hgt),
          if_pos (UInt8.lt_iff_toNat_lt.2 hgt)]
        simp only [Bool.false_eq_true, false_iff]
        omega

theorem isCanonicalFrLe_iff {bytes : Bytes} (h : bytes.length = 32) :
    MerkleTree.isCanonicalFrLe bytes = true ↔ Bytes.ofLe bytes < frModulus := by
  have hmodulus : Bytes.ofBe MerkleTree.frModulusLe.reverse = frModulus := by decide
  rw [MerkleTree.isCanonicalFrLe, leLt_iff (by rw [List.length_reverse, h]; rfl), hmodulus,
    Bytes.ofBe, List.reverse_reverse]

theorem toNullifierKey_ok_iff {nf : Bytes} {key : Bytes32} :
    toNullifierKey nf = .ok key ↔ Canonical nf ∧ key = MerkleTree.hash32 nf := by
  unfold toNullifierKey Canonical
  by_cases hlen : nf.length = 32
  · rw [if_neg (not_not.2 hlen), ← isCanonicalFrLe_iff hlen]
    cases MerkleTree.isCanonicalFrLe nf <;> simp [hlen, eq_comm]
  · simp [hlen]

theorem hash32_injective {a b : Bytes} (ha : a.length = 32) (hb : b.length = 32)
    (h : MerkleTree.hash32 a = MerkleTree.hash32 b) : a = b := by
  rw [← MerkleTree.hashBytes_hash32 ha, h, MerkleTree.hashBytes_hash32 hb]

/-- Two canonical encodings of one field element are one string. -/
theorem Canonical.injective {a b : Bytes} (ha : Canonical a) (hb : Canonical b)
    (h : Bytes.ofLe a = Bytes.ofLe b) : a = b := by
  rw [← Bytes.toLe_ofLe a, ← Bytes.toLe_ofLe b, ha.1, hb.1, h]

theorem toNullifierKeys_ok_iff {nfs : List Bytes} {keys : List Bytes32} :
    nfs.mapM toNullifierKey = .ok keys ↔
      (∀ nf ∈ nfs, Canonical nf) ∧ keys = nfs.map MerkleTree.hash32 := by
  induction nfs generalizing keys with
  | nil =>
    rw [List.mapM_nil]
    simp [pure, Except.pure, eq_comm]
  | cons nf nfs ih =>
    rw [List.mapM_cons, List.forall_mem_cons, List.map_cons]
    constructor
    · intro h
      obtain ⟨key, hkey, h⟩ := bind_ok h
      obtain ⟨rest, hrest, h⟩ := bind_ok h
      cases h
      obtain ⟨hnf, rfl⟩ := toNullifierKey_ok_iff.1 hkey
      obtain ⟨hnfs, rfl⟩ := ih.1 hrest
      exact ⟨⟨hnf, hnfs⟩, rfl⟩
    · rintro ⟨⟨hnf, hnfs⟩, rfl⟩
      exact bind_of_ok (toNullifierKey_ok_iff.2 ⟨hnf, rfl⟩) (bind_of_ok (ih.2 ⟨hnfs, rfl⟩) rfl)

/-! ### One message -/

theorem checkFresh_ok_iff {registry : StableMap Bytes32 Nat} {seen : StableMap Bytes32 Unit}
    {keys : List Bytes32} {u : Unit} :
    checkFresh registry seen keys = .ok u ↔
      (∀ key ∈ keys, registry.contains key = false ∧ key ∉ seen) ∧ keys.Nodup := by
  induction keys generalizing seen with
  | nil => simp [checkFresh]
  | cons key keys ih =>
    rw [checkFresh, List.forall_mem_cons, List.nodup_cons]
    by_cases hreg : registry.contains key = true
    · simp [hreg]
    by_cases hseen : key ∈ seen
    · simp [hreg, hseen]
    rw [if_neg hreg, if_neg fun h => hseen (Std.ExtTreeMap.mem_iff_contains.2 h), ih]
    simp only [Std.ExtTreeMap.mem_insert, Std.compare_eq_iff_eq, not_or, Bool.not_eq_true] at hreg ⊢
    constructor
    · rintro ⟨hfresh, hnd⟩
      exact ⟨⟨⟨hreg, hseen⟩, fun k hk => ⟨(hfresh k hk).1, (hfresh k hk).2.2⟩⟩,
        fun hmem => (hfresh key hmem).2.1 rfl, hnd⟩
    · rintro ⟨⟨-, hfresh⟩, hnot, hnd⟩
      exact ⟨fun k hk => ⟨(hfresh k hk).1, fun h => hnot (h ▸ hk), (hfresh k hk).2⟩, hnd⟩

section Step
variable {pool caller : Principal} {log : List (Bytes × Nat)} {s t : RegistryState} {now : Nat}

theorem containsNullifier_iff {nf : Bytes} (h : Canonical nf) :
    containsNullifier nf s = s.nullifiers.contains (MerkleTree.hash32 nf) := by
  rw [containsNullifier, toNullifierKey_ok_iff.2 ⟨h, rfl⟩]

/-- A batch the registry can take: canonical, pairwise distinct and new. -/
structure Takes (s : RegistryState) (nfs : List Bytes) : Prop where
  canonical : ∀ nf ∈ nfs, Canonical nf
  distinct : nfs.Nodup
  fresh : ∀ nf ∈ nfs, containsNullifier nf s = false

theorem Takes.keys_nodup {nfs : List Bytes} (h : Takes s nfs) :
    (nfs.map MerkleTree.hash32).Nodup :=
  List.pairwise_map.2 <| h.distinct.imp_of_mem fun ha hb hne heq =>
    hne (hash32_injective (h.canonical _ ha).1 (h.canonical _ hb).1 heq)

theorem assertPoolCanister_ok_iff {u : Unit} :
    (assertPoolCanister caller).exec s = .ok (.ok u, t) ↔ s.poolCanister = some caller ∧ t = s := by
  simp only [assertPoolCanister, bind_ok_iff, read_ok_iff, expect_ok_iff, assert_ok_iff, and_assoc,
    exists_and_left, exists_eq_left]
  constructor
  · rintro ⟨pool, hpool, rfl, rfl⟩
    exact ⟨hpool, rfl⟩
  · rintro ⟨hpool, rfl⟩
    exact ⟨caller, hpool, rfl, rfl⟩

/-- The batch's keys at this time. -/
def taken (now : Nat) (nfs : List Bytes) (s : RegistryState) : RegistryState :=
  {s with nullifiers := insertAll now s.nullifiers (nfs.map MerkleTree.hash32)}

theorem takes_iff {nfs : List Bytes} :
    Takes s nfs ↔ (∀ nf ∈ nfs, Canonical nf) ∧
      (∀ key ∈ nfs.map MerkleTree.hash32, s.nullifiers.contains key = false ∧
        key ∉ (∅ : StableMap Bytes32 Unit)) ∧ (nfs.map MerkleTree.hash32).Nodup := by
  constructor
  · intro h
    refine ⟨h.canonical, fun key hkey => ⟨?_, Std.ExtTreeMap.not_mem_empty⟩, h.keys_nodup⟩
    obtain ⟨nf, hnf, rfl⟩ := List.mem_map.1 hkey
    exact containsNullifier_iff (h.canonical nf hnf) ▸ h.fresh nf hnf
  · rintro ⟨hcanonical, hfresh, hnd⟩
    refine ⟨hcanonical, List.Nodup.of_map _ hnd, fun nf hnf => ?_⟩
    rw [containsNullifier_iff (hcanonical nf hnf)]
    exact (hfresh _ (List.mem_map_of_mem hnf)).1

theorem insertBatch_ok_iff {nfs : List Bytes} {u : Unit} :
    (insertBatch now caller nfs).exec s = .ok (.ok u, t) ↔
      s.poolCanister = some caller ∧ Takes s nfs ∧ t = taken now nfs s := by
  simp only [insertBatch, bind_ok_iff, assertPoolCanister_ok_iff, read_ok_iff, lift_ok_iff,
    write_ok_iff, toNullifierKeys_ok_iff, checkFresh_ok_iff, takes_iff, taken, and_assoc,
    exists_and_left, exists_eq_left, exists_const]

/-- A single insertion is a batch of one. -/
theorem insertNullifier_ok_iff {nf : Bytes} {u : Unit} :
    (insertNullifier now caller nf).exec s = .ok (.ok u, t) ↔
      s.poolCanister = some caller ∧ Takes s [nf] ∧ t = taken now [nf] s := by
  simp only [insertNullifier, bind_ok_iff, assertPoolCanister_ok_iff, read_ok_iff, lift_ok_iff,
    demand_ok_iff, write_ok_iff, toNullifierKey_ok_iff, takes_iff, taken, insertAll, and_assoc,
    exists_and_left, exists_eq_left, exists_const, List.map_cons, List.map_nil, List.foldl_cons,
    List.foldl_nil, List.forall_mem_singleton, List.nodup_singleton, Std.ExtTreeMap.not_mem_empty,
    not_false_eq_true, true_and]

theorem readOnly_assertPoolCanister : (assertPoolCanister caller).ReadOnly :=
  (readOnly_read _).bind fun configured => by
    cases configured with
    | none => exact readOnly_trap _
    | some pool => exact readOnly_assert _ _

theorem atomic_insertNullifier (now : Nat) (caller : Principal) (nf : Bytes) : (insertNullifier now caller nf).Atomic :=
  readOnly_assertPoolCanister.bind_atomic fun _ =>
    (readOnly_lift _).bind_atomic fun _ =>
      (readOnly_read _).bind_atomic fun _ =>
        (readOnly_demand _ _).bind_atomic fun _ => (sure_write _).atomic

theorem atomic_insertBatch (now : Nat) (caller : Principal) (nfs : List Bytes) : (insertBatch now caller nfs).Atomic :=
  readOnly_assertPoolCanister.bind_atomic fun _ =>
    (readOnly_lift _).bind_atomic fun _ =>
      (readOnly_read _).bind_atomic fun _ =>
        (readOnly_lift _).bind_atomic fun _ => (sure_write _).atomic

/-- What a batch adds is its members, and the rest of the registry stays. -/
theorem taken_get {nfs : List Bytes} (key : Bytes32) :
    (taken now nfs s).nullifiers[key]? =
      if key ∈ nfs.map MerkleTree.hash32 then some now else s.nullifiers[key]? :=
  StableMap.get_foldl_insert_eq _ _ _ _

end Step

/-! ### A run -/

/-- The registry is the log of what was accepted, and nothing was accepted twice. -/
structure Holds (pool : Principal) (log : List (Bytes × Nat)) (s : RegistryState) : Prop where
  configured : s.poolCanister = some pool
  cell : s.poolRef = some pool
  canonical : ∀ e ∈ log, Canonical e.1
  entries : ∀ (key : Bytes32) (t : Nat), s.nullifiers[key]? = some t ↔
    ∃ nf, key = MerkleTree.hash32 nf ∧ (nf, t) ∈ log
  distinct : (log.map Prod.fst).Nodup

section Run
variable {pool : Principal} {log : List (Bytes × Nat)} {s t : RegistryState}

theorem holds_init : Holds pool [] (init pool) where
  configured := rfl
  cell := rfl
  canonical := nofun
  entries := fun key t => by
    show (∅ : StableMap Bytes32 Nat)[key]? = some t ↔ _
    simp
  distinct := List.nodup_nil

theorem Holds.contains_iff (h : Holds pool log s) {nf : Bytes} (hnf : Canonical nf) :
    containsNullifier nf s = true ↔ nf ∈ log.map Prod.fst := by
  rw [containsNullifier_iff hnf, StableMap.contains_iff, List.mem_map]
  simp only [h.entries]
  constructor
  · rintro ⟨t, nf', heq, hmem⟩
    exact ⟨_, hmem, hash32_injective (h.canonical _ hmem).1 hnf.1 heq.symm⟩
  · rintro ⟨⟨nf', t⟩, hmem, rfl⟩
    exact ⟨t, nf', rfl, hmem⟩

theorem Holds.taken (h : Holds pool log s) {nfs : List Bytes} (hnfs : Takes s nfs) (now : Nat) :
    Holds pool (log ++ nfs.map fun nf => (nf, now)) (taken now nfs s) where
  configured := h.configured
  cell := h.cell
  canonical := fun e he => by
    rcases List.mem_append.1 he with he | he
    · exact h.canonical e he
    · obtain ⟨nf, hnf, rfl⟩ := List.mem_map.1 he
      exact hnfs.canonical nf hnf
  entries := fun key t => by
    rw [taken_get]
    have hold : ∀ nf ∈ nfs, nf ∉ log.map Prod.fst := fun nf hnf hlog => by
      have hcontains := (h.contains_iff (hnfs.canonical nf hnf)).2 hlog
      rw [hnfs.fresh nf hnf] at hcontains
      cases hcontains
    split
    · next hkey =>
      obtain ⟨nf, hnf, rfl⟩ := List.mem_map.1 hkey
      constructor
      · intro ht
        cases ht
        exact ⟨nf, rfl, List.mem_append_right _ (List.mem_map_of_mem hnf)⟩
      · rintro ⟨nf', heq, hmem⟩
        rcases List.mem_append.1 hmem with hlog | hnew
        · have hsame := hash32_injective (h.canonical _ hlog).1 (hnfs.canonical nf hnf).1 heq.symm
          exact absurd (hsame ▸ List.mem_map_of_mem hlog) (hold nf hnf)
        · obtain ⟨_, _, hpair⟩ := List.mem_map.1 hnew
          exact congrArg some (congrArg Prod.snd hpair)
    · next hkey =>
      rw [h.entries]
      refine exists_congr fun nf => and_congr_right fun heq => ?_
      rw [List.mem_append]
      refine (or_iff_left fun hnew => hkey ?_).symm
      obtain ⟨nf', hnf', hpair⟩ := List.mem_map.1 hnew
      cases hpair
      exact heq ▸ List.mem_map_of_mem hnf'
  distinct := by
    have hfst : (nfs.map fun nf => (nf, now)).map Prod.fst = nfs := by
      rw [List.map_map]
      exact List.map_id _
    rw [List.map_append, hfst]
    refine List.nodup_append'.2 ⟨h.distinct, hnfs.distinct, List.disjoint_left.2 fun nf hold hnew => ?_⟩
    have hcontains := (h.contains_iff (hnfs.canonical nf hnew)).2 hold
    rw [hnfs.fresh nf hnew] at hcontains
    cases hcontains

theorem Holds.upgrade (h : Holds pool log s) : upgrade.exec s = .ok (.ok (), s) := by
  simp only [NullifierRegistry.upgrade, bind_ok_iff, write_ok_iff, read_ok_iff, expect_ok_iff,
    and_assoc, exists_and_left, exists_eq_left, exists_const, h.cell, Option.some.injEq,
    exists_eq_left']
  exact RegistryState.ext rfl h.cell h.configured

/-- What a message that was refused leaves. -/
def Answer.refused : Answer → Bool
  | .inserted (.error _) | .trapped _ => true
  | _ => false

/-- An insertion ends in one of two ways. -/
theorem respond_cases {x : Endpoint Unit} (hx : x.Atomic) (s : RegistryState) :
    (∃ t, x.exec s = .ok (.ok (), t) ∧ respond .inserted s (x.exec s) = (.inserted (.ok ()), t)) ∨
      ((respond .inserted s (x.exec s)).1.refused = true ∧
        (respond .inserted s (x.exec s)).2 = s) := by
  match hr : x.exec s with
  | .error r => exact .inr ⟨rfl, rfl⟩
  | .ok (.error e, t) => exact .inr ⟨rfl, hx s e t hr⟩
  | .ok (.ok (), t) => exact .inl ⟨t, rfl, rfl⟩

theorem accepted_refused (m : Message) {a : Answer} (h : a.refused = true) : accepted m a = [] := by
  cases a with
  | inserted r =>
    cases r with
    | error e => rfl
    | ok u => cases h
  | upgraded => rfl
  | trapped r => rfl

/-- A message is refused and changes nothing, or it takes what it offers. -/
theorem Holds.step_cases (h : Holds pool log s) (m : Message) :
    ((accepted m (step m s).1 = [] ∧ (step m s).2 = s)) ∨
      (Takes s m.offers ∧ (step m s).1 = .inserted (.ok ()) ∧
        (step m s).2 = NullifierRegistry.taken m.now m.offers s) := by
  obtain ⟨now, caller, call⟩ := m
  cases call with
  | insertNullifier nf =>
    rcases respond_cases (atomic_insertNullifier now caller nf) s with
      ⟨t, hx, hr⟩ | ⟨href, hs⟩
    · obtain ⟨-, htakes, rfl⟩ := insertNullifier_ok_iff.1 hx
      exact .inr ⟨htakes, congrArg Prod.fst hr, congrArg Prod.snd hr⟩
    · exact .inl ⟨accepted_refused _ href, hs⟩
  | insertBatch nfs =>
    rcases respond_cases (atomic_insertBatch now caller nfs) s with
      ⟨t, hx, hr⟩ | ⟨href, hs⟩
    · obtain ⟨-, htakes, rfl⟩ := insertBatch_ok_iff.1 hx
      exact .inr ⟨htakes, congrArg Prod.fst hr, congrArg Prod.snd hr⟩
    · exact .inl ⟨accepted_refused _ href, hs⟩
  | upgrade =>
    refine .inl ?_
    show accepted _ (respond (fun _ => .upgraded) s (NullifierRegistry.upgrade.exec s)).1 = [] ∧
      (respond (fun _ => .upgraded) s (NullifierRegistry.upgrade.exec s)).2 = s
    rw [h.upgrade]
    exact ⟨rfl, rfl⟩

theorem Holds.step (h : Holds pool log s) (m : Message) :
    Holds pool (log ++ accepted m (NullifierRegistry.step m s).1) (NullifierRegistry.step m s).2 := by
  rcases h.step_cases m with ⟨hnone, hs⟩ | ⟨htakes, hr, hs⟩
  · rw [hnone, List.append_nil, hs]
    exact h
  · rw [hr, hs]
    exact h.taken htakes m.now

theorem Run.holds (run : Run pool log s) : Holds pool log s := by
  induction run with
  | installed => exact holds_init
  | step _ m ih => exact ih.step m

/-- No field element was accepted twice, in whatever encoding. -/
theorem Holds.scalars_nodup (h : Holds pool log s) : (log.map fun e => Bytes.ofLe e.1).Nodup := by
  have hpairs := List.pairwise_map.1 h.distinct
  exact List.pairwise_map.2 <| hpairs.imp_of_mem fun ha hb hne heq =>
    hne ((h.canonical _ ha).injective (h.canonical _ hb) heq)

theorem Holds.mem_scalars_iff (h : Holds pool log s) {nf : Bytes} (hnf : Canonical nf) :
    Bytes.ofLe nf ∈ log.map (fun e => Bytes.ofLe e.1) ↔ nf ∈ log.map Prod.fst := by
  rw [List.mem_map, List.mem_map]
  refine exists_congr fun e => and_congr_right fun he => ⟨fun heq => ?_, fun heq => ?_⟩
  · exact (h.canonical e he).injective hnf heq
  · rw [heq]

theorem Holds.count_eq (h : Holds pool log s) {nf : Bytes} (hnf : Canonical nf) :
    (log.map fun e => Bytes.ofLe e.1).count (Bytes.ofLe nf) =
      if containsNullifier nf s then 1 else 0 := by
  have hmem := (h.mem_scalars_iff hnf).trans (h.contains_iff hnf).symm
  split
  · next hspent => exact List.count_eq_one_of_mem h.scalars_nodup (hmem.2 hspent)
  · next hnew => exact List.count_eq_zero_of_not_mem fun hin => hnew (hmem.1 hin)

/-! ### The spent set -/

/-- The registry as a set that only grows, and what a message does to it. -/
structure SpentSet (pool : Principal) (log : List (Bytes × Nat)) (s : RegistryState) : Prop where
  batch : ∀ now nfs, (∃ t, (insertBatch now pool nfs).exec s = .ok (.ok (), t)) ↔
    (∀ nf ∈ nfs, Canonical nf) ∧ nfs.Nodup ∧ ∀ nf ∈ nfs, containsNullifier nf s = false
  single : ∀ now nf, (∃ t, (insertNullifier now pool nf).exec s = .ok (.ok (), t)) ↔
    Canonical nf ∧ containsNullifier nf s = false
  adds : ∀ m : Message, (step m s).1 = .inserted (.ok ()) → ∀ key : Bytes32,
    (step m s).2.nullifiers[key]? =
      if key ∈ m.offers.map MerkleTree.hash32 then some m.now else s.nullifiers[key]?
  refused : ∀ m : Message, (step m s).1.refused = true → (step m s).2 = s
  kept : ∀ (m : Message) (key : Bytes32) (t : Nat), s.nullifiers[key]? = some t →
    (step m s).2.nullifiers[key]? = some t
  exact : ∀ (key : Bytes32) (t : Nat), s.nullifiers[key]? = some t ↔
    ∃ nf, Canonical nf ∧ key = MerkleTree.hash32 nf ∧ (nf, t) ∈ log
  once : ∀ nf, Canonical nf →
    (log.map fun e => Bytes.ofLe e.1).count (Bytes.ofLe nf) = if containsNullifier nf s then 1 else 0

/-- Whatever insertions the registry took, by either endpoint, it is the set of what it
accepted, and it accepted each nullifier once. -/
theorem registry_monotone (run : Run pool log s) : SpentSet pool log s := by
  have h := run.holds
  refine ⟨fun now nfs => ?_, fun now nf => ?_, fun m hm key => ?_, fun m hm => ?_,
    fun m key t hkey => ?_, fun key t => ?_, fun nf hnf => ?_⟩
  · constructor
    · rintro ⟨t, ht⟩
      obtain ⟨-, htakes, -⟩ := insertBatch_ok_iff.1 ht
      exact ⟨htakes.canonical, htakes.distinct, htakes.fresh⟩
    · rintro ⟨hcanonical, hdistinct, hfresh⟩
      exact ⟨_, insertBatch_ok_iff.2 ⟨h.configured, ⟨hcanonical, hdistinct, hfresh⟩, rfl⟩⟩
  · constructor
    · rintro ⟨t, ht⟩
      obtain ⟨-, htakes, -⟩ := insertNullifier_ok_iff.1 ht
      exact ⟨htakes.canonical nf List.mem_cons_self, htakes.fresh nf List.mem_cons_self⟩
    · rintro ⟨hcanonical, hfresh⟩
      exact ⟨_, insertNullifier_ok_iff.2 ⟨h.configured, ⟨List.forall_mem_singleton.2 hcanonical,
        List.nodup_singleton nf, List.forall_mem_singleton.2 hfresh⟩, rfl⟩⟩
  · rcases h.step_cases m with ⟨hnone, hs⟩ | ⟨-, -, hs⟩
    · -- a batch that was taken and adds nothing offered nothing
      rw [hm] at hnone
      rw [List.map_eq_nil_iff.1 hnone, hs, List.map_nil, if_neg List.not_mem_nil]
    · rw [hs, taken_get]
  · rcases h.step_cases m with ⟨-, hs⟩ | ⟨-, hr, -⟩
    · exact hs
    · rw [hr] at hm
      cases hm
  · rcases h.step_cases m with ⟨-, hs⟩ | ⟨htakes, -, hs⟩
    · rw [hs, hkey]
    · rw [hs, taken_get, if_neg, hkey]
      intro hmem
      have hfresh := (takes_iff.1 htakes).2.1 key hmem
      rw [StableMap.contains_iff.2 ⟨t, hkey⟩] at hfresh
      cases hfresh.1
  · rw [h.entries]
    constructor
    · rintro ⟨nf, rfl, hmem⟩
      exact ⟨nf, h.canonical _ hmem, rfl, hmem⟩
    · rintro ⟨nf, -, rfl, hmem⟩
      exact ⟨nf, rfl, hmem⟩
  · exact h.count_eq hnf

/-- The spent 1 is offered again after an upgrade, and again beside a new 2. -/
theorem registry_monotone_twice :
    ∃ log s, SpentSet .anonymous log s ∧ log.length = 1 := by
  let nf (x : UInt8) : Bytes := x :: List.replicate 31 0
  have run := ((((Run.installed : Run .anonymous [] (init .anonymous)).step
    ⟨5, .anonymous, .insertBatch [nf 1]⟩).step ⟨6, .anonymous, .upgrade⟩).step
    ⟨7, .anonymous, .insertNullifier (nf 1)⟩).step ⟨8, .anonymous, .insertBatch [nf 2, nf 1]⟩
  exact ⟨_, _, registry_monotone run, by decide +kernel⟩

end Run

end StshProtocol.NullifierRegistry
