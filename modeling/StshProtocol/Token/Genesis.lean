import StshProtocol.Token.Effects
import StshProtocol.Foundation.Sha256

/-! Genesis mints the supply.

The allocations are credited through the same write as every later credit; when their
sum is the supply, none of it overflows, and the vault ends holding the supply
(`init_exec`). Nothing else gets a token installed (`init_ok`). -/
namespace StshProtocol.Token
open Foundation ShieldedPool Handler

theorem checkedSum_go {values : List Nat} {acc total : Nat}
    (h : values.foldlM checkedAdd128 acc = some total) : total = acc + values.sum := by
  induction values generalizing acc with
  | nil =>
    cases h
    rfl
  | cons v rest ih =>
    rw [List.foldlM_cons] at h
    obtain ⟨next, hnext, h⟩ := Option.bind_eq_some_iff.1 h
    rw [ih h, (checkedAdd128_eq hnext).1, List.sum_cons, Nat.add_assoc]

theorem checkedSum_ok {values : List Nat} {total : Nat} (h : checkedSum values = some total) :
    total = values.sum := by
  rw [checkedSum_go h, Nat.zero_add]

/-- A sum that fits is computed. -/
theorem checkedSum_go_of_le {values : List Nat} {acc : Nat} (h : acc + values.sum ≤ u128Max) :
    values.foldlM checkedAdd128 acc = some (acc + values.sum) := by
  induction values generalizing acc with
  | nil => rfl
  | cons v rest ih =>
    rw [List.sum_cons] at h
    rw [List.foldlM_cons, checkedAdd128, if_pos (by omega), Option.bind_eq_bind, Option.bind_some,
      ih (by omega), List.sum_cons, Nat.add_assoc]

theorem checkedSum_of_le {values : List Nat} (h : values.sum ≤ u128Max) :
    checkedSum values = some values.sum := by
  rw [checkedSum, checkedSum_go_of_le (by omega), Nat.zero_add]

/-- The accepted allocations are the supply. -/
theorem validated_sum {allocations : List AllocationCategory}
    (h : validateInitAllocations allocations = .ok ()) :
    (allocations.map AllocationCategory.amount).sum = totalSupply := by
  unfold validateInitAllocations at h
  split at h
  · nomatch h
  · next total hsum =>
    split at h
    · nomatch h
    · next heq => rw [← checkedSum_ok hsum, not_not.1 heq]

/-- Minting credits what is owed, allocation by allocation. -/
theorem mintAll_exec {allocations : List AllocationCategory} {s : TokenState} {owed : Nat}
    (h : s.vault.Holds owed) (hle : (allocations.map AllocationCategory.amount).sum ≤ owed) :
    ∃ v, (mintAll allocations).exec s = .ok (.ok (), {s with vault := v}) ∧
      v.Holds (owed - (allocations.map AllocationCategory.amount).sum) := by
  induction allocations generalizing s owed with
  | nil => exact ⟨s.vault, rfl, h⟩
  | cons a rest ih =>
    rw [List.map_cons, List.sum_cons] at hle ⊢
    have hcap := Vault.totalSupply_le
    have hsupply := h.supply
    have hbal := h.balances.get_le (⟨a.recipient, a.subaccount⟩ : Account).encodeKey
    obtain ⟨v, hv, hh⟩ := h.credit (⟨a.recipient, a.subaccount⟩ : Account).encodeKey a.amount rfl
      (by omega)
    obtain ⟨w, hw, hhw⟩ := ih (s := {s with vault := v}) hh (by omega)
    refine ⟨w, ?_, ?_⟩
    · refine bind_ok_iff.2 ⟨(), {s with vault := v}, ?_, hw⟩
      simp only [mint, bind_ok_iff, getBalance, read_ok_iff, expect_ok_iff, writeBalance_ok_iff,
        and_assoc, exists_and_left, exists_eq_left]
      exact ⟨_, if_pos (by omega), v, hv, rfl⟩
    · rwa [Nat.sub_sub] at hhw

theorem holds_seeded (fee : Nat) : (seedAtGenesis (TokenState.fresh fee)).vault.Holds totalSupply :=
  ⟨⟨rfl, LedgerMap.sound_empty.nonzero⟩, ⟨rfl, LedgerMap.sound_empty.nonzero⟩, Nat.zero_add _,
    fun _ => Nat.le_refl _, rfl⟩

/-- A token just installed: what its vault holds, under the fee and the principals given. -/
def installed (args : InitArgs) (fee : Nat) (v : Vault) : TokenState :=
  configure args {seedAtGenesis (TokenState.fresh fee) with vault := v}

/-- Genesis credits every accepted list of allocations, and the vault holds the supply. -/
theorem init_exec (args : InitArgs) (fee : Nat)
    (hvalid : validateInitAllocations args.allocations = .ok ()) :
    ∃ v, (init args).exec (TokenState.fresh fee) = .ok (.ok (), installed args fee v) ∧
      v.Holds 0 := by
  have hsum := validated_sum hvalid
  obtain ⟨v, hv, hh⟩ := mintAll_exec (holds_seeded fee) (Nat.le_of_eq hsum)
  rw [hsum, Nat.sub_self] at hh
  refine ⟨v, ?_, hh⟩
  simp only [init, validated, hvalid, bind_ok_iff, read_ok_iff, assert_ok_iff, write_ok_iff,
    pure_ok_iff, and_assoc, exists_and_left, exists_eq_left, exists_const]
  exact ⟨rfl, trivial, (), _, hv, rfl⟩

/-- A token is only installed with allocations that are accepted. -/
theorem init_valid {args : InitArgs} {fee : Nat} {s : TokenState}
    (h : (init args).exec (TokenState.fresh fee) = .ok (.ok (), s)) :
    validateInitAllocations args.allocations = .ok () := by
  simp only [init, bind_ok_iff, read_ok_iff, assert_ok_iff, and_assoc, exists_and_left,
    exists_eq_left, exists_const] at h
  obtain ⟨-, _, _, hvalid, -⟩ := h
  unfold validated at hvalid
  split at hvalid
  · cases hvalid
  · next h => exact h

theorem init_ok {args : InitArgs} {fee : Nat} {s : TokenState}
    (h : (init args).exec (TokenState.fresh fee) = .ok (.ok (), s)) :
    ∃ v, s = installed args fee v ∧ v.Holds 0 := by
  obtain ⟨v, hv, hh⟩ := init_exec args fee (init_valid h)
  rw [hv] at h
  cases h
  exact ⟨v, rfl, hh⟩

/-- A genesis with one allocation, fees going to a collector that holds it too. -/
def soleAllocation : InitArgs where
  allocations := [⟨"treasury", "Treasury", totalSupply, 7, none⟩]
  treasury := 7
  stakingCanister := 8
  feeCollector := some 7
  poolCanister := some 9

/-- What that genesis installs, in a module built with no fee. -/
def soleGenesis : TokenState :=
  match (init soleAllocation).exec (TokenState.fresh 0) with
  | .ok (_, s) => s
  | .error _ => TokenState.fresh 0

theorem soleGenesis_exec :
    (init soleAllocation).exec (TokenState.fresh 0) = .ok (.ok (), soleGenesis) := by
  obtain ⟨v, hs, -⟩ := init_exec soleAllocation 0 (by decide)
  rw [soleGenesis, hs]

/-- A module that hashes with SHA-256. -/
def plainEnv : Env := ⟨1, Sha256.sha256, fun _ => true⟩

end StshProtocol.Token
