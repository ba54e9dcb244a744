import StshProtocol.Token.Supply

/-! The token as the staking canister sees it.

Only the staking canister moves a lock, which canister that is never changes, and a call of
its own moves the lock of the holder it names by the amount it names, or moves none. -/
namespace StshProtocol.Token
open Foundation ShieldedPool Handler

variable {E : Env} {s : TokenState} {m : Message}

theorem does_stakingCanister {cap : Nat} {t : TokenState} {a : Answer} (h : Does cap E m s a t) :
    t.stakingCanister = s.stakingCanister := by
  cases h with
  | nothing => rfl
  | transfer call ht =>
    obtain ⟨v, -, rfl⟩ := ht.left
    rfl
  | approve call ha =>
    obtain ⟨v, -, rfl⟩ := ha.left
    rfl
  | transferFrom call ht =>
    obtain ⟨v, -, rfl⟩ := ht.left
    rfl
  | lock => rfl
  | unlock => rfl
  | close call hk hc => cases hc <;> rfl
  | pruneAllowances => rfl
  | pruneDedup => rfl
  | upgrade => rfl

/-- An answer of success comes from an endpoint that succeeded. -/
theorem respond_staking_ok {x : Endpoint String Unit}
    (h : (respond .staking s (x.exec s)).1 = .staking (.ok ())) :
    ∃ t, x.exec s = .ok (.ok (), t) ∧ (respond .staking s (x.exec s)).2 = t := by
  match hx : x.exec s with
  | .error _ =>
    rw [hx] at h
    cases h
  | .ok (.error _, _) =>
    rw [hx] at h
    cases h
  | .ok (.ok (), t) => exact ⟨t, rfl, rfl⟩

/-- Who locked or unlocked is the staking canister. -/
theorem lockForStaking_caller {caller holder : Principal} {amount : Nat} {t : TokenState}
    (h : (lockForStaking caller holder amount).exec s = .ok (.ok (), t)) :
    s.stakingCanister = some caller := by
  rw [lockForStaking, bind_ok_iff] at h
  obtain ⟨_, _, h, -⟩ := h
  exact (assertStakingCanister_ok_iff.1 h).1

theorem unlockFromStaking_caller {caller holder : Principal} {amount : Nat} {t : TokenState}
    (h : (unlockFromStaking caller holder amount).exec s = .ok (.ok (), t)) :
    s.stakingCanister = some caller := by
  rw [unlockFromStaking, bind_ok_iff] at h
  obtain ⟨_, _, h, -⟩ := h
  exact (assertStakingCanister_ok_iff.1 h).1

theorem step_lock (now : Nat) (caller holder : Principal) (amount : Nat) :
    step E ⟨now, caller, .lockForStaking holder amount⟩ s =
      respond .staking s ((lockForStaking caller holder amount).exec s) := rfl

theorem step_unlock (now : Nat) (caller holder : Principal) (amount : Nat) :
    step E ⟨now, caller, .unlockFromStaking holder amount⟩ s =
      respond .staking s ((unlockFromStaking caller holder amount).exec s) := rfl

/-- Nobody but the staking canister moves a lock. -/
theorem step_locks {self : Principal} (hself : s.stakingCanister = some self)
    (hm : m.caller ≠ self) : (step E m s).2.vault.locks = s.vault.locks := by
  obtain ⟨now, caller, call⟩ := m
  have stranger : s.stakingCanister ≠ some caller := fun h =>
    hm (Option.some.inj (h.symm.trans hself))
  have hdoes := does_step E ⟨now, caller, call⟩ s
  generalize hstep : step E ⟨now, caller, call⟩ s = r at hdoes
  obtain ⟨a, t⟩ := r
  cases hdoes with
  | lock hcall =>
    obtain rfl := hcall
    rw [step_lock] at hstep
    obtain ⟨t, ht, -⟩ := respond_staking_ok (congrArg Prod.fst hstep)
    exact absurd (lockForStaking_caller ht) stranger
  | unlock hcall =>
    obtain rfl := hcall
    rw [step_unlock] at hstep
    obtain ⟨t, ht, -⟩ := respond_staking_ok (congrArg Prod.fst hstep)
    exact absurd (unlockFromStaking_caller ht) stranger
  | nothing => rfl
  | transfer call ht =>
    obtain ⟨v, hv, rfl⟩ := ht.left
    exact Vault.pay_locks hv
  | approve call ha =>
    obtain ⟨v, hv, rfl⟩ := ha.left
    exact Vault.charge_locks hv
  | transferFrom call ht =>
    obtain ⟨v, hv, rfl⟩ := ht.left
    exact Vault.pay_locks hv
  | close call hk hc => cases hc <;> rfl
  | pruneAllowances => rfl
  | pruneDedup => rfl
  | upgrade => rfl

theorem writeLock_get {v v' : Vault} {key : Bytes} {old new : Nat}
    (h : v.writeLock key old new = some v') (a : Bytes) :
    v'.locks.get a = if key = a then new else v.locks.get a := by
  obtain ⟨m, hm, rfl⟩ := Option.map_eq_some_iff.1 h
  exact LedgerMap.write_get hm a

/-- A lock that succeeds adds to the lock of its holder. -/
theorem lock_moves {now : Nat} {caller holder : Principal} {amount : Nat}
    (h : (step E ⟨now, caller, .lockForStaking holder amount⟩ s).1 = .staking (.ok ())) (key : Bytes) :
    (step E ⟨now, caller, .lockForStaking holder amount⟩ s).2.vault.locks.get key =
      s.vault.locks.get key +
        if (⟨holder, none⟩ : Account).encodeKey = key then amount else 0 := by
  rw [step_lock] at h ⊢
  obtain ⟨t, ht, hstate⟩ := respond_staking_ok h
  obtain ⟨-, v, hv, rfl⟩ := lockForStaking_ok ht
  rw [hstate]
  refine (writeLock_get hv key).trans ?_
  split
  · next hkey => rw [hkey]
  · rfl

/-- An unlock that succeeds takes from it. -/
theorem unlock_moves {now : Nat} {caller holder : Principal} {amount : Nat}
    (h : (step E ⟨now, caller, .unlockFromStaking holder amount⟩ s).1 = .staking (.ok ()))
    (key : Bytes) :
    (step E ⟨now, caller, .unlockFromStaking holder amount⟩ s).2.vault.locks.get key +
        (if (⟨holder, none⟩ : Account).encodeKey = key then amount else 0) =
      s.vault.locks.get key := by
  rw [step_unlock] at h ⊢
  obtain ⟨t, ht, hstate⟩ := respond_staking_ok h
  obtain ⟨hle, v, hv, rfl⟩ := unlockFromStaking_ok ht
  rw [hstate]
  have hget := writeLock_get hv key
  split
  · next hkey =>
    rw [if_pos hkey] at hget
    rw [hkey] at hget hle
    show v.locks.get key + amount = _
    omega
  · next hkey => exact hget.trans (if_neg hkey)

/-- One that does not succeed leaves the ledger as it was. -/
theorem staking_refused {x : Endpoint String Unit} (hx : x.Atomic)
    (h : (respond .staking s (x.exec s)).1 ≠ .staking (.ok ())) :
    (respond .staking s (x.exec s)).2 = s := by
  match hr : x.exec s with
  | .error _ => rfl
  | .ok (.error e, t) => exact hx s e t hr
  | .ok (.ok (), t) =>
    rw [hr] at h
    exact absurd rfl h

end StshProtocol.Token
