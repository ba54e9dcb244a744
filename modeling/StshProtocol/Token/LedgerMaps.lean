import StshProtocol.Token.Basic
import StshProtocol.Foundation.MapTotal

/-! The write funnel: a map of amounts and its running total.

`BALANCES` and `STAKING_LOCKS` are each written by one function, which is told the
stored value and moves the total by the difference. The map is `Sound` when the
total is the sum of the rows and no row is zero; a write that is told the value
really stored keeps it sound, and its `expect` is not taken while the new total fits
(`LedgerMap.Sound.write`). -/
namespace StshProtocol.Token
open Foundation ShieldedPool

/-- Rows by account key, and their running total. -/
structure LedgerMap where
  rows : StableMap Bytes Nat
  sum : Nat

namespace LedgerMap

def empty : LedgerMap := ⟨∅, 0⟩

/-- `get_balance`, `get_lock`: an absent row is zero. -/
def get (m : LedgerMap) (key : Bytes) : Nat := m.rows.amount key

/-- A logical zero is represented by absence. -/
def setRow (rows : StableMap Bytes Nat) (key : Bytes) (new : Nat) : StableMap Bytes Nat :=
  if new = 0 then rows.erase key else rows.insert key new

/-- The running total moved by the signed difference. -/
def moveSum (sum old new : Nat) : Option Nat :=
  if new ≥ old then checkedAdd128 sum (new - old) else checkedSub sum (old - new)

/-- `write_balance`, `write_lock`: the row at `key` goes from `old` to `new`; nothing
when the running total cannot follow. -/
def write (m : LedgerMap) (key : Bytes) (old new : Nat) : Option LedgerMap :=
  (moveSum m.sum old new).map fun sum => ⟨setRow m.rows key new, sum⟩

/-- The total is the sum of the rows, and a zero is the absence of a row. -/
structure Sound (m : LedgerMap) : Prop where
  sum : m.sum = StableMap.total m.rows
  nonzero : ∀ key : Bytes, m.rows[key]? ≠ some 0

theorem sound_empty : empty.Sound := ⟨rfl, fun _ => by simp [empty]⟩

variable {m m' : LedgerMap} {key : Bytes} {old new : Nat}

theorem Sound.get_le (h : Sound m) (key : Bytes) : m.get key ≤ m.sum := by
  rw [h.sum]
  exact StableMap.amount_le_total m.rows key

theorem amount_setRow (rows : StableMap Bytes Nat) (key a : Bytes) (new : Nat) :
    StableMap.amount (setRow rows key new) a = if key = a then new else StableMap.amount rows a := by
  unfold setRow
  split
  · next hn => rw [StableMap.amount_erase, hn]
  · rw [StableMap.amount_insert]

theorem total_setRow (rows : StableMap Bytes Nat) (key : Bytes) (new : Nat) :
    StableMap.total (setRow rows key new) + StableMap.amount rows key =
      StableMap.total rows + new := by
  have herase := StableMap.total_erase rows key
  unfold setRow
  split
  · next hn => rw [herase, hn, Nat.add_zero]
  · rw [StableMap.total_insert]
    omega

theorem setRow_nonzero {rows : StableMap Bytes Nat} (h : ∀ a : Bytes, rows[a]? ≠ some 0)
    (key a : Bytes) (new : Nat) : (setRow rows key new)[a]? ≠ some 0 := by
  unfold setRow
  split
  · rw [StableMap.get_erase]
    split
    · simp
    · exact h a
  · next hn =>
    rw [StableMap.get_insert]
    split
    · exact fun h0 => hn (Option.some.inj h0)
    · exact h a

/-- The total follows when the old value is part of it and the new total fits. -/
theorem moveSum_eq {sum : Nat} (hold : old ≤ sum) (hfit : sum + new ≤ u128Max + old) :
    moveSum sum old new = some (sum + new - old) := by
  unfold moveSum
  split
  · rw [checkedAdd128, if_pos (by omega)]
    congr 1
    omega
  · rw [checkedSub, if_pos (by omega)]
    congr 1
    omega

theorem write_get (h : m.write key old new = some m') (a : Bytes) :
    m'.get a = if key = a then new else m.get a := by
  obtain ⟨sum, -, rfl⟩ := Option.map_eq_some_iff.1 h
  exact amount_setRow m.rows key a new

/-- Told the stored value, a write is carried out while the new total fits, moves the
total by the difference and keeps the map sound. -/
theorem Sound.write (h : Sound m) (key : Bytes) (new : Nat) (hold : old = m.get key)
    (hfit : m.sum + new ≤ u128Max + old) :
    ∃ m', m.write key old new = some m' ∧ Sound m' ∧ m'.sum + old = m.sum + new := by
  have hle : old ≤ m.sum := hold ▸ h.get_le key
  have htotal := total_setRow m.rows key new
  rw [show StableMap.amount m.rows key = old from hold.symm, ← h.sum] at htotal
  refine ⟨⟨setRow m.rows key new, m.sum + new - old⟩, ?_, ⟨?_, ?_⟩, ?_⟩
  · rw [LedgerMap.write, moveSum_eq hle hfit]
    rfl
  · show m.sum + new - old = StableMap.total (setRow m.rows key new)
    omega
  · exact fun a => setRow_nonzero h.nonzero key a new
  · show m.sum + new - old + old = m.sum + new
    omega

end LedgerMap

/-! ### The vault -/

/-- `BALANCES`, `STAKING_LOCKS`, their totals and `FEE_RESERVE`. `saturated` is ghost:
whether a saturating credit of a fee ever lost some of it. -/
structure Vault where
  balances : LedgerMap
  locks : LedgerMap
  feeReserve : Nat
  saturated : Bool

namespace Vault

def empty : Vault := ⟨.empty, .empty, 0, false⟩

/-- What may be moved out of an account: its balance less its lock. -/
def liquid (v : Vault) (key : Bytes) : Nat := v.balances.get key - v.locks.get key

def writeBalance (v : Vault) (key : Bytes) (old new : Nat) : Option Vault :=
  (v.balances.write key old new).map fun m => {v with balances := m}

def writeLock (v : Vault) (key : Bytes) (old new : Nat) : Option Vault :=
  (v.locks.write key old new).map fun m => {v with locks := m}

/-- The ghost of a saturating addition. -/
def noting (v : Vault) (a b : Nat) : Vault :=
  {v with saturated := v.saturated || decide (u128Max < a + b)}

/-- `route_fee_to_treasury`, to the recipient in force. -/
def routeFee (v : Vault) (recipient : Option Principal) (fee : Nat) : Option Vault :=
  if fee = 0 then
    some v
  else
    match recipient with
    | none => some ({v with feeReserve := satAdd128 v.feeReserve fee}.noting v.feeReserve fee)
    | some treasury =>
      let key := (⟨treasury, none⟩ : Account).encodeKey
      let bal := v.balances.get key
      (v.writeBalance key bal (satAdd128 bal fee)).map fun v' => v'.noting bal fee

/-- The writes of a transfer: the debit, the credit, the fee. A transfer to oneself
credits the balance after the debit. -/
def pay (v : Vault) (fromKey toKey : Bytes) (amount fee : Nat) (recipient : Option Principal) :
    Option Vault := do
  let fromBal := v.balances.get fromKey
  let newFrom := fromBal - (amount + fee)
  let toBase := if toKey = fromKey then newFrom else v.balances.get toKey
  let debited ← v.writeBalance fromKey fromBal newFrom
  let credited ← debited.writeBalance toKey toBase (toBase + amount)
  credited.routeFee recipient fee

/-- The writes of an approval: its fee. -/
def charge (v : Vault) (key : Bytes) (fee : Nat) (recipient : Option Principal) : Option Vault := do
  let debited ← v.writeBalance key (v.balances.get key) (v.balances.get key - fee)
  debited.routeFee recipient fee

/-- The ledger while `owed` has been taken from accounts and not yet been given to
others: the totals are right, balances, reserve and what is owed are the supply, and
every lock is covered. -/
structure Holds (v : Vault) (owed : Nat) : Prop where
  balances : v.balances.Sound
  locks : v.locks.Sound
  supply : v.balances.sum + v.feeReserve + owed = totalSupply
  covered : ∀ key, v.locks.get key ≤ v.balances.get key
  exact : v.saturated = false

theorem totalSupply_le : totalSupply ≤ u128Max := by decide

variable {v : Vault} {owed : Nat} {key : Bytes}

/-- A debit down to no less than the lock is carried out, and is then owed. -/
theorem Holds.debit {old : Nat} (h : v.Holds owed) (key : Bytes) (new : Nat)
    (hold : old = v.balances.get key) (hle : new ≤ old) (hlock : v.locks.get key ≤ new) :
    ∃ v', v.writeBalance key old new = some v' ∧ v'.Holds (owed + (old - new)) := by
  have hsupply := h.supply
  have hcap := totalSupply_le
  obtain ⟨m, hm, hs, hsum⟩ := h.balances.write key new hold (by omega)
  refine ⟨{v with balances := m}, by rw [writeBalance, hm]; rfl, hs, h.locks, ?_, fun a => ?_, h.exact⟩
  · show m.sum + v.feeReserve + (owed + (old - new)) = totalSupply
    omega
  · show v.locks.get a ≤ m.get a
    rw [LedgerMap.write_get hm]
    split
    · next hk => exact hk ▸ hlock
    · exact h.covered a

/-- A credit of what is owed is carried out. -/
theorem Holds.credit {old : Nat} (h : v.Holds owed) (key : Bytes) (amount : Nat)
    (hold : old = v.balances.get key) (hle : amount ≤ owed) :
    ∃ v', v.writeBalance key old (old + amount) = some v' ∧ v'.Holds (owed - amount) := by
  have hsupply := h.supply
  have hcap := totalSupply_le
  obtain ⟨m, hm, hs, hsum⟩ := h.balances.write key (old + amount) hold (by omega)
  refine ⟨{v with balances := m}, by rw [writeBalance, hm]; rfl, hs, h.locks, ?_, fun a => ?_, h.exact⟩
  · show m.sum + v.feeReserve + (owed - amount) = totalSupply
    omega
  · show v.locks.get a ≤ m.get a
    rw [LedgerMap.write_get hm]
    split
    · next hk =>
      subst hk
      have := h.covered key
      omega
    · exact h.covered a

theorem Holds.noting {a b : Nat} (h : v.Holds owed) (hfit : a + b ≤ u128Max) :
    (v.noting a b).Holds owed := by
  refine ⟨h.balances, h.locks, h.supply, h.covered, ?_⟩
  show (v.saturated || decide (u128Max < a + b)) = false
  rw [h.exact, decide_eq_false (by omega)]
  rfl

/-- A fee that is owed reaches its recipient, whole. -/
theorem Holds.routeFee (h : v.Holds owed) (fee : Nat) (hle : fee ≤ owed)
    (recipient : Option Principal) :
    ∃ v', v.routeFee recipient fee = some v' ∧ v'.Holds (owed - fee) := by
  have hsupply := h.supply
  have hcap := totalSupply_le
  unfold Vault.routeFee
  split
  · next h0 => exact ⟨v, rfl, by rw [h0]; exact h⟩
  · cases recipient with
    | none =>
      have hfit : v.feeReserve + fee ≤ u128Max := by omega
      refine ⟨_, rfl, Holds.noting ⟨h.balances, h.locks, ?_, h.covered, h.exact⟩ hfit⟩
      show v.balances.sum + satAdd128 v.feeReserve fee + (owed - fee) = totalSupply
      rw [satAdd128_eq hfit]
      omega
    | some treasury =>
      have hbal := h.balances.get_le (⟨treasury, none⟩ : Account).encodeKey
      have hfit : v.balances.get (⟨treasury, none⟩ : Account).encodeKey + fee ≤ u128Max := by omega
      obtain ⟨v', hv', hh⟩ := h.credit (⟨treasury, none⟩ : Account).encodeKey fee rfl hle
      simp only [satAdd128_eq hfit, hv', Option.map_some]
      exact ⟨_, rfl, hh.noting hfit⟩

theorem writeBalance_get {v v' : Vault} {old new : Nat} (h : v.writeBalance key old new = some v')
    (a : Bytes) : v'.balances.get a = if key = a then new else v.balances.get a := by
  obtain ⟨m, hm, rfl⟩ := Option.map_eq_some_iff.1 h
  exact LedgerMap.write_get hm a

theorem writeBalance_locks {v v' : Vault} {old new : Nat} (h : v.writeBalance key old new = some v') :
    v'.locks = v.locks := by
  obtain ⟨m, -, rfl⟩ := Option.map_eq_some_iff.1 h
  rfl

theorem routeFee_locks {v v' : Vault} {recipient : Option Principal} {fee : Nat}
    (h : v.routeFee recipient fee = some v') : v'.locks = v.locks := by
  unfold Vault.routeFee at h
  split at h
  · cases h
    rfl
  · split at h
    · cases h
      rfl
    · obtain ⟨w, hw, rfl⟩ := Option.map_eq_some_iff.1 h
      show w.locks = v.locks
      exact writeBalance_locks hw

/-- A transfer of what is liquid is carried out, to anyone, the sender and the fee
recipient included. -/
theorem Holds.pay {fromKey : Bytes} {amount fee : Nat} (h : v.Holds 0)
    (hliquid : amount + fee ≤ v.liquid fromKey) (toKey : Bytes) (recipient : Option Principal) :
    ∃ v', v.pay fromKey toKey amount fee recipient = some v' ∧ v'.Holds 0 := by
  have hcov := h.covered fromKey
  unfold liquid at hliquid
  obtain ⟨v₁, h₁, hh₁⟩ := h.debit fromKey (v.balances.get fromKey - (amount + fee)) rfl
    (Nat.sub_le _ _) (by omega)
  -- Whoever is credited, the value read before the writes is the one stored now.
  have hbase : (if toKey = fromKey then v.balances.get fromKey - (amount + fee)
      else v.balances.get toKey) = v₁.balances.get toKey := by
    rw [writeBalance_get h₁]
    by_cases hk : toKey = fromKey
    · rw [if_pos hk, if_pos hk.symm]
    · rw [if_neg hk, if_neg (Ne.symm hk)]
  obtain ⟨v₂, h₂, hh₂⟩ := hh₁.credit toKey amount hbase (by omega)
  obtain ⟨v₃, h₃, hh₃⟩ := hh₂.routeFee fee (by omega) recipient
  refine ⟨v₃, ?_, ?_⟩
  · simp only [Vault.pay, h₁, Option.bind_eq_bind, Option.bind_some, h₂, h₃]
  · have howed : 0 + (v.balances.get fromKey - (v.balances.get fromKey - (amount + fee))) - amount - fee
        = 0 := by omega
    rwa [howed] at hh₃

/-- A fee out of what is liquid is carried out. -/
theorem Holds.charge {fee : Nat} (h : v.Holds 0) (hliquid : fee ≤ v.liquid key)
    (recipient : Option Principal) :
    ∃ v', v.charge key fee recipient = some v' ∧ v'.Holds 0 := by
  have hcov := h.covered key
  unfold liquid at hliquid
  obtain ⟨v₁, h₁, hh₁⟩ := h.debit key (v.balances.get key - fee) rfl
    (Nat.sub_le _ _) (by omega)
  obtain ⟨v₂, h₂, hh₂⟩ := hh₁.routeFee fee (by omega) recipient
  refine ⟨v₂, ?_, ?_⟩
  · simp only [Vault.charge, h₁, Option.bind_eq_bind, Option.bind_some, h₂]
  · have howed : 0 + (v.balances.get key - (v.balances.get key - fee)) - fee = 0 := by omega
    rwa [howed] at hh₂

theorem pay_locks {v v' : Vault} {fromKey toKey : Bytes} {amount fee : Nat}
    {recipient : Option Principal} (h : v.pay fromKey toKey amount fee recipient = some v') :
    v'.locks = v.locks := by
  simp only [Vault.pay, Option.bind_eq_bind, Option.bind_eq_some_iff] at h
  obtain ⟨v₁, h₁, v₂, h₂, h₃⟩ := h
  rw [routeFee_locks h₃, writeBalance_locks h₂, writeBalance_locks h₁]

theorem charge_locks {v v' : Vault} {fee : Nat} {recipient : Option Principal}
    (h : v.charge key fee recipient = some v') : v'.locks = v.locks := by
  simp only [Vault.charge, Option.bind_eq_bind, Option.bind_eq_some_iff] at h
  obtain ⟨v₁, h₁, h₂⟩ := h
  rw [routeFee_locks h₂, writeBalance_locks h₁]

theorem Holds.locks_le (h : v.Holds owed) : v.locks.sum ≤ v.balances.sum := by
  rw [h.locks.sum, h.balances.sum]
  exact StableMap.total_le h.covered

/-- A lock the balance covers is written. -/
theorem Holds.relock {new : Nat} (h : v.Holds owed) (hle : new ≤ v.balances.get key) :
    ∃ v', v.writeLock key (v.locks.get key) new = some v' ∧ v'.Holds owed := by
  have hsupply := h.supply
  have hcap : totalSupply + totalSupply ≤ u128Max := by decide
  have hlocks := h.locks_le
  have hbal := h.balances.get_le key
  obtain ⟨m, hm, hs, -⟩ := h.locks.write key new rfl (by omega)
  refine ⟨{v with locks := m}, by rw [writeLock, hm]; rfl, h.balances, hs, h.supply, fun a => ?_,
    h.exact⟩
  show m.get a ≤ v.balances.get a
  rw [LedgerMap.write_get hm]
  split
  · next hk => exact hk ▸ hle
  · exact h.covered a

end Vault
end StshProtocol.Token
