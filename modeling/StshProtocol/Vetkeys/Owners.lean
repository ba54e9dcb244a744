import StshProtocol.Vetkeys.Devices
import StshProtocol.Vesting.Accounts

/-! The rows of one owner.

A device's key is its owner's and its own, each of one length, so the keys in an owner's range
are those of its devices (`inOwnerRange_iff`), and what the code counts in the range is what the
owner has enrolled. -/
namespace StshProtocol.Vetkeys
open Foundation ShieldedPool Vesting StableMap

section Keys
variable {p q : PrincipalBytes} {id d k : Bytes}

theorem length_principalKey (p : PrincipalBytes) : (PrincipalKey.new p).length = 30 := by
  have hp := p.short
  simp only [PrincipalKey.new, PrincipalBytes.sized, principalMaxBytes, List.cons_append,
    List.length_cons, List.length_append, List.length_replicate]
  omega

theorem principalKey_new_inj (h : PrincipalKey.new p = PrincipalKey.new q) : p = q :=
  (sized_append_inj h).1

theorem length_deviceIdKey (h : DeviceIdKey.new id = some d) : d.length = 1 + maxDeviceIdBytes := by
  unfold DeviceIdKey.new at h
  split at h
  · exact nomatch h
  · next hid =>
    have hlen := Nat.not_lt.1 (not_or.1 hid).2
    obtain rfl := Option.some.inj h
    simp only [List.cons_append, List.length_cons, List.length_append, List.length_replicate]
    omega

theorem length_of_deviceIdKey (h : DeviceIdKey.new id = some d) : id.length ≤ maxDeviceIdBytes := by
  unfold DeviceIdKey.new at h
  split at h
  · exact nomatch h
  · next hid => exact Nat.not_lt.1 (not_or.1 hid).2

/-- A key a device can have. -/
def IsDeviceKey (k : Bytes) : Prop :=
  ∃ p id d, DeviceIdKey.new id = some d ∧ k = deviceKey (PrincipalKey.new p) d

theorem deviceKey_inj {d d' : Bytes}
    (h : deviceKey (PrincipalKey.new p) d = deviceKey (PrincipalKey.new q) d') : p = q ∧ d = d' := by
  obtain ⟨hp, hd⟩ := List.append_inj h
    ((length_principalKey p).trans (length_principalKey q).symm)
  exact ⟨principalKey_new_inj hp, hd⟩

/-- The range of an owner holds its devices' keys and no others. -/
theorem inOwnerRange_iff (hk : IsDeviceKey k) :
    InOwnerRange (PrincipalKey.new p) k ↔ ∃ d, k = deviceKey (PrincipalKey.new p) d := by
  obtain ⟨q, id, d, hd, rfl⟩ := hk
  have hrange := ByteKeys.range_iff (x := d)
    ((length_principalKey p).trans (length_principalKey q).symm)
  rw [length_deviceIdKey hd] at hrange
  refine hrange.trans ⟨fun h => ⟨d, by rw [h, deviceKey]⟩, ?_⟩
  rintro ⟨d', h⟩
  rw [(deviceKey_inj h).1]

end Keys

namespace VetkeysState

/-- The principal has enrolled a device. -/
def HasDevice (s : VetkeysState) (owner : PrincipalKey) : Prop :=
  ∃ d r, s.devices[deviceKey owner d]? = some r

/-- A device of the principal is active. -/
def HasActive (s : VetkeysState) (owner : PrincipalKey) : Prop :=
  ∃ d r, s.devices[deviceKey owner d]? = some r ∧ r.status = .active

/-- The flag is set, and no clear of it has come into effect. -/
def ApprovalInForce (s : VetkeysState) (owner : PrincipalKey) (nowNs : Nat) : Prop :=
  ∃ p, s.deviceApprovalPolicy[owner]? = some p ∧ p.requireDeviceApproval = true ∧
    ∀ t, p.pendingClearAtNs = some t → nowNs < t

variable {s : VetkeysState} {p : PrincipalBytes} {r : DeviceRecord} {nowNs : Nat}

theorem mem_devicesOf (hkeys : ∀ k r, s.devices[k]? = some r → IsDeviceKey k) :
    r ∈ s.devicesOf (PrincipalKey.new p) ↔
      ∃ d, s.devices[deviceKey (PrincipalKey.new p) d]? = some r := by
  unfold devicesOf
  simp only [List.mem_map, List.mem_filter, decide_eq_true_eq, Prod.exists, mem_toList]
  constructor
  · rintro ⟨k, r', ⟨hrow, hrange⟩, rfl⟩
    obtain ⟨d, rfl⟩ := (inOwnerRange_iff (hkeys k r' hrow)).1 hrange
    exact ⟨d, hrow⟩
  · rintro ⟨d, hrow⟩
    exact ⟨_, r, ⟨hrow, (inOwnerRange_iff (hkeys _ r hrow)).2 ⟨d, rfl⟩⟩, rfl⟩

theorem hasEverEnrolled_iff (hkeys : ∀ k r, s.devices[k]? = some r → IsDeviceKey k) :
    s.hasEverEnrolled (PrincipalKey.new p) = true ↔ s.HasDevice (PrincipalKey.new p) := by
  rw [hasEverEnrolled, Bool.not_eq_true', ← Bool.not_eq_true, List.isEmpty_iff,
    List.eq_nil_iff_forall_not_mem]
  simp only [mem_devicesOf hkeys, HasDevice]
  push Not
  exact exists_comm

theorem activeDevices_isEmpty_iff (hkeys : ∀ k r, s.devices[k]? = some r → IsDeviceKey k) :
    (s.activeDevices (PrincipalKey.new p)).isEmpty = true ↔ ¬s.HasActive (PrincipalKey.new p) := by
  rw [List.isEmpty_iff, List.eq_nil_iff_forall_not_mem]
  simp only [activeDevices, List.mem_filter, mem_devicesOf hkeys, decide_eq_true_eq, HasActive]
  exact ⟨fun h ⟨d, r, hrow, hactive⟩ => h r ⟨⟨d, hrow⟩, hactive⟩,
    fun h r ⟨⟨d, hrow⟩, hactive⟩ => h ⟨d, r, hrow, hactive⟩⟩

theorem deviceApprovalRequired_iff {owner : PrincipalKey} :
    s.deviceApprovalRequired owner nowNs = true ↔ s.ApprovalInForce owner nowNs := by
  unfold deviceApprovalRequired ApprovalInForce
  cases hrow : s.deviceApprovalPolicy[owner]? with
  | none => simp
  | some row =>
    obtain ⟨require, setBy, setAt, pending⟩ := row
    cases pending <;> simp

/-- Where the way of tickets is open, no device's approval is demanded, and a principal without
an active device has none at all or an authorisation. -/
theorem of_bootstrapPathOpen (hkeys : ∀ k r, s.devices[k]? = some r → IsDeviceKey k)
    (hopen : s.bootstrapPathOpen (PrincipalKey.new p) nowNs = true) :
    (s.HasActive (PrincipalKey.new p) → ¬s.ApprovalInForce (PrincipalKey.new p) nowNs) ∧
      (s.HasDevice (PrincipalKey.new p) → ¬s.HasActive (PrincipalKey.new p) →
        ∃ policy, s.reBootstrapPolicy[PrincipalKey.new p]? = some policy ∧
          policy.allowReBootstrap = true) := by
  unfold bootstrapPathOpen at hopen
  by_cases hactive : s.HasActive (PrincipalKey.new p)
  · have hsome := (activeDevices_isEmpty_iff hkeys).not.2 (not_not.2 hactive)
    rw [if_pos hsome, Bool.not_eq_true', ← Bool.not_eq_true, deviceApprovalRequired_iff] at hopen
    exact ⟨fun _ => hopen, fun _ hnot => absurd hactive hnot⟩
  · refine ⟨fun h => absurd h hactive, fun hdevice _ => ?_⟩
    have hempty := (activeDevices_isEmpty_iff hkeys).2 hactive
    have hever := (hasEverEnrolled_iff hkeys).2 hdevice
    rw [if_neg (not_not.2 hempty), if_neg (not_not.2 hever)] at hopen
    cases hrow : s.reBootstrapPolicy[PrincipalKey.new p]? with
    | none =>
      rw [hrow] at hopen
      exact nomatch hopen
    | some policy =>
      rw [hrow] at hopen
      exact ⟨policy, rfl, hopen⟩

end VetkeysState
end StshProtocol.Vetkeys
