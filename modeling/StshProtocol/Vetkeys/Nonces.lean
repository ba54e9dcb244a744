import Mathlib.Data.List.TakeWhile
import StshProtocol.Vetkeys.Turns

/-! The nonces that have been used.

A nonce is kept under its owner, its issuer and itself, with the expiry of what it was signed
with; an index has the expiries in order. Where the two correspond, nothing here traps. A nonce is
only forgotten after its expiry, when what was signed with it no longer passes. -/
namespace StshProtocol.Vetkeys
open Foundation ShieldedPool Vesting Handler

variable {nowNs : Nat} {b b' b'' : Timed Bytes Nat} {k : Bytes} {x : Nat}

/-- Rows are as they were, but some that had expired are gone. -/
def Pruned (nowNs : Nat) (b b' : Timed Bytes Nat) : Prop :=
  ∀ k : Bytes, b'.rows[k]? = b.rows[k]? ∨ b'.rows[k]? = none ∧ ∃ x : Nat, b.rows[k]? = some x ∧ x < nowNs

theorem pruned_refl (nowNs : Nat) (b : Timed Bytes Nat) : Pruned nowNs b b := fun _ => .inl rfl

theorem Pruned.trans (h : Pruned nowNs b b') (h' : Pruned nowNs b' b'') : Pruned nowNs b b'' := by
  intro k
  rcases h' k with hsame | ⟨hgone, x, hx, hexpired⟩
  · rw [hsame]
    exact h k
  · rcases h k with hsame | ⟨hgone', -⟩
    · exact .inr ⟨hgone, x, hsame ▸ hx, hexpired⟩
    · exact nomatch hgone'.symm.trans hx

theorem Pruned.of_some (h : Pruned nowNs b b') (hk : b.rows[k]? = some x) :
    b'.rows[k]? = some x ∨ b'.rows[k]? = none ∧ x < nowNs := by
  rcases h k with hsame | ⟨hgone, y, hy, hexpired⟩
  · exact .inl (hsame.trans hk)
  · exact .inr ⟨hgone, Option.some.inj (hk.symm.trans hy) ▸ hexpired⟩

theorem removeNonce_pruned {e : TimeKey Bytes} (he : e.time < nowNs) (h : removeNonce b e = some b') :
    Pruned nowNs b b' := by
  unfold removeNonce at h
  split at h
  · next hmatch =>
    obtain rfl := Option.some.inj h
    intro k
    rw [StableMap.get_erase]
    by_cases hk : e.key = k
    · rw [if_pos hk]
      exact .inr ⟨rfl, e.time, hk ▸ hmatch.2, he⟩
    · rw [if_neg hk]
      exact .inl rfl
  · exact nomatch h

theorem foldlM_removeNonce_pruned {entries : List (TimeKey Bytes)} (hin : ∀ e ∈ entries, e.time < nowNs)
    (h : entries.foldlM removeNonce b = some b') : Pruned nowNs b b' := by
  induction entries generalizing b with
  | nil =>
    cases h
    exact pruned_refl nowNs _
  | cons e rest ih =>
    rw [List.foldlM_cons] at h
    obtain ⟨b₁, hfirst, hrest⟩ := Option.bind_eq_some_iff.1 h
    exact (removeNonce_pruned (hin e List.mem_cons_self) hfirst).trans
      (ih (fun e' he' => hin e' (List.mem_cons_of_mem _ he')) hrest)

theorem pruneExpiredNonces_pruned (h : pruneExpiredNonces nowNs b = some b') : Pruned nowNs b b' :=
  foldlM_removeNonce_pruned
    (fun _ he => by simpa using List.mem_takeWhile_imp (List.mem_of_mem_take he)) h

/-- Where the index is exact, pruning succeeds, and it still is. -/
theorem pruneExpiredNonces_exact (h : Timed.Exact some b) :
    ∃ b', pruneExpiredNonces nowNs b = some b' ∧ Timed.Exact some b' := by
  have hsub : ((b.byTime.keys.takeWhile fun e => decide (e.time < nowNs)).take noncePruneMax).Sublist
      b.byTime.keys := (List.take_sublist _ _).trans (List.takeWhile_sublist _)
  have hin : ∀ e ∈ (b.byTime.keys.takeWhile fun e => decide (e.time < nowNs)).take noncePruneMax,
      e ∈ b.byTime := fun e he => Std.ExtTreeMap.mem_keys.1 (hsub.mem he)
  refine ⟨_, h.foldlM_drop (fun b e hb he => ?_) (hsub.nodup (StableMap.keys_nodup _)) hin, h.drop hin⟩
  obtain ⟨x, hx, ht⟩ := (hb e).1 he
  rw [removeNonce, if_pos ⟨Std.ExtTreeMap.contains_iff_mem.2 he, hx.trans ht⟩]

/-! ### Using one -/

section Consume
variable {s t : VetkeysState} {owner : PrincipalKey} {issuer : DeviceIdKey} {nonce : Nonce16}
  {expiryNs : Nat}

/-- A nonce that had been used is refused, and expired ones are forgotten. -/
theorem consumeNonce_error {e : VetkeysError}
    (h : (consumeNonce owner issuer nonce expiryNs nowNs).exec s = .ok (.error e, t)) :
    ∃ b, Pruned nowNs s.consumedNonces b ∧ t = {s with consumedNonces := b} := by
  unfold consumeNonce at h
  rw [exec_bind_ok (exec_read _)] at h
  cases hprune : pruneExpiredNonces nowNs s.consumedNonces with
  | none =>
    rw [hprune] at h
    exact nomatch h
  | some b =>
    rw [hprune, exec_bind_ok (expect_ok_iff.2 ⟨rfl, rfl⟩), exec_bind_ok (exec_write _)] at h
    refine ⟨b, pruneExpiredNonces_pruned hprune, ?_⟩
    rcases (readOnly_demand _ _).bind_ends h with ⟨rfl, -⟩ | ⟨_, -, hrest⟩
    · rfl
    · rcases (readOnly_assert _ _).bind_ends hrest with ⟨rfl, -⟩ | ⟨_, -, hwrite⟩
      · rfl
      · exact nomatch hwrite

/-- A nonce that is taken had not been used, and is kept with its expiry. -/
theorem consumeNonce_ok (h : (consumeNonce owner issuer nonce expiryNs nowNs).exec s = .ok (.ok (), t)) :
    ∃ b, Pruned nowNs s.consumedNonces b ∧
      b.rows[nonceKey owner issuer nonce.val]? = none ∧
      t = {s with consumedNonces := ⟨b.rows.insert (nonceKey owner issuer nonce.val) expiryNs,
        b.byTime.insert ⟨expiryNs, nonceKey owner issuer nonce.val⟩ ()⟩} := by
  unfold consumeNonce at h
  rw [exec_bind_ok (exec_read _)] at h
  cases hprune : pruneExpiredNonces nowNs s.consumedNonces with
  | none =>
    rw [hprune] at h
    exact nomatch h
  | some b =>
    rw [hprune, exec_bind_ok (expect_ok_iff.2 ⟨rfl, rfl⟩), exec_bind_ok (exec_write _)] at h
    obtain ⟨_, _, hdemand, hassert⟩ := bind_ok_iff.1 h
    obtain ⟨hfresh, rfl⟩ := demand_ok_iff.1 hdemand
    obtain ⟨_, _, hindex, hwrite⟩ := bind_ok_iff.1 hassert
    obtain ⟨-, rfl⟩ := assert_ok_iff.1 hindex
    obtain rfl := (write_ok_iff.1 hwrite)
    exact ⟨b, pruneExpiredNonces_pruned hprune, StableMap.not_contains_iff.1 hfresh, rfl⟩

end Consume

/-- The nonces and their index correspond. -/
def NoncesExact (s : VetkeysState) : Prop := Timed.Exact some s.consumedNonces

/-- Every nonce is still kept with its expiry, unless that has passed. -/
def Kept (nowNs : Nat) (b b' : Timed Bytes Nat) : Prop :=
  ∀ (k : Bytes) (x : Nat), b.rows[k]? = some x → b'.rows[k]? = some x ∨ x < nowNs

theorem kept_refl (nowNs : Nat) (b : Timed Bytes Nat) : Kept nowNs b b := fun _ _ h => .inl h

theorem Kept.pruned (h : Kept nowNs b b') (hp : Pruned nowNs b' b'') : Kept nowNs b b'' := by
  intro k x hx
  rcases h k x hx with hkept | hexpired
  · exact (hp.of_some hkept).imp id And.right
  · exact .inr hexpired

theorem Kept.insert (h : Kept nowNs b b') (hk : b'.rows[k]? = none) (x : Nat) :
    Kept nowNs b ⟨b'.rows.insert k x, b'.byTime.insert ⟨x, k⟩ ()⟩ := by
  intro k' y hy
  refine (h k' y hy).imp (fun hkept => ?_) id
  have hne : k ≠ k' := by
    rintro rfl
    exact nomatch hk.symm.trans hkept
  exact (StableMap.get_insert_ne x hne).trans hkept

/-- The nonces and their index correspond, and those of `b` are still kept. -/
def NoncesFrom (nowNs : Nat) (b : Timed Bytes Nat) (s : VetkeysState) : Prop :=
  NoncesExact s ∧ Kept nowNs b s.consumedNonces

/-- Taking a nonce does not trap; the two still correspond, and only expired nonces are gone. -/
theorem safe_consumeNonce (owner : PrincipalKey) (issuer : DeviceIdKey) (nonce : Nonce16)
    (expiryNs : Nat) : Safe (NoncesFrom nowNs b) (consumeNonce owner issuer nonce expiryNs nowNs) := by
  intro s ⟨hs, hkept⟩
  obtain ⟨b', hprune, hb⟩ : ∃ b', pruneExpiredNonces nowNs s.consumedNonces = some b' ∧
      Timed.Exact some b' := pruneExpiredNonces_exact hs
  have hpruned := hkept.pruned (pruneExpiredNonces_pruned hprune)
  unfold consumeNonce
  rw [exec_bind_ok (exec_read _), hprune, exec_bind_ok (expect_ok_iff.2 ⟨rfl, rfl⟩),
    exec_bind_ok (exec_write _)]
  by_cases hfresh : ¬b'.rows.contains (nonceKey owner issuer nonce.val) = true
  · have hnone := StableMap.not_contains_iff.1 hfresh
    have hindex : ¬b'.byTime.contains ⟨expiryNs, nonceKey owner issuer nonce.val⟩ = true :=
      fun hin => hb.not_entry hnone (Std.ExtTreeMap.contains_iff_mem.1 hin)
    rw [exec_bind_ok (exec_demand hfresh), exec_bind_ok ((assert_ok_iff (u := ())).2 ⟨hindex, rfl⟩)]
    exact ⟨_, _, rfl, hb.insert hnone rfl, hpruned.insert hnone expiryNs⟩
  · rw [exec_bind_error (demand_refuses hfresh)]
    exact ⟨_, _, rfl, hb, hpruned⟩

end StshProtocol.Vetkeys
