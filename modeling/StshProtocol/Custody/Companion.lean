import StshProtocol.Custody.Types
import StshProtocol.Foundation.TrailingLog
import StshProtocol.Token.Basic
import StshProtocol.Foundation.Handler
import StshProtocol.Foundation.MapTotal

/-! The entry-rate ledger.

Each plane keeps the entry events of the last day: who, and when. A charge first drops what has left
the window, and is refused, with nothing stored, when the window already holds as many events as all
signers together may have, or as many of the caller's as one signer may have. The ledger is judged
against the log of every event ever charged. -/
namespace StshProtocol.Custody
open Foundation ShieldedPool
open Foundation.TrailingLog

/-- An entry event: `(who, at_ns)`. -/
abbrev EntryEvent : Type := Principal × Nat

structure EntryRateLedger where
  events : List EntryEvent
  deriving DecidableEq, Repr

namespace EntryRateLedger

def empty : EntryRateLedger := ⟨[]⟩

/-- Drops what has left the window. -/
def slide (l : EntryRateLedger) (params : EntryRateParams) (now : Nat) : EntryRateLedger :=
  ⟨l.events.filter fun e => decide (now - params.windowNs < e.2)⟩

def retained (l : EntryRateLedger) : Nat := l.events.length

def retainedFor (l : EntryRateLedger) (who : Principal) : Nat :=
  l.events.countP fun e => decide (e.1 = who)

/-- The ledger after a charge, unless it is refused. -/
def charge (l : EntryRateLedger) (params : EntryRateParams) (who : Principal) (now : Nat) :
    Option EntryRateLedger :=
  let l := l.slide params now
  if l.retained ≥ params.globalPerWindow ∨ l.retainedFor who ≥ params.perSignerPerWindow then none
  else some ⟨l.events ++ [(who, now)]⟩

end EntryRateLedger

/-! ### The log of all charges -/

/-- The events that lie in the window that ends now. -/
def windowCount (params : EntryRateParams) (now : Nat) (log : List EntryEvent) : Nat :=
  log.countP fun e => decide (now - params.windowNs < e.2)

/-- Those of them that are of one principal. -/
def windowCountOf (params : EntryRateParams) (who : Principal) (now : Nat) (log : List EntryEvent) :
    Nat :=
  log.countP fun e => decide (e.1 = who) && decide (now - params.windowNs < e.2)

/-- No window of the log holds more events than all signers may have, nor more of one principal's
than one may have. -/
structure WithinRates (params : EntryRateParams) (log : List EntryEvent) : Prop where
  all : Sparse params.windowNs params.globalPerWindow (log.map Prod.snd)
  each : ∀ who, Sparse params.windowNs params.perSignerPerWindow
    ((log.filter fun e => decide (e.1 = who)).map Prod.snd)

/-- The ledger tells as much of the log as any charge from now on will look at, and the log is within
the rates. -/
structure Ledgered (params : EntryRateParams) (now : Nat) (l : EntryRateLedger)
    (log : List EntryEvent) : Prop where
  tracks : Tracks Prod.snd params.windowNs now l.events log
  rates : WithinRates params log

section Charging
variable {params : EntryRateParams} {now later : Nat} {l l' : EntryRateLedger} {log : List EntryEvent}
  {who : Principal}

theorem ledgered_empty : Ledgered params now .empty [] where
  tracks := tracks_nil
  rates := ⟨sparse_nil, fun _ => sparse_nil⟩

theorem Ledgered.wait (h : Ledgered params now l log) (hle : now ≤ later) :
    Ledgered params later l log := ⟨h.tracks.wait hle, h.rates⟩

theorem Ledgered.retained (h : Ledgered params now l log) :
    (l.slide params now).retained = windowCount params now log := h.tracks.length

theorem Ledgered.retainedFor (h : Ledgered params now l log) (who : Principal) :
    (l.slide params now).retainedFor who = windowCountOf params who now log :=
  h.tracks.countP fun e => decide (e.1 = who)

theorem charge_eq_some (h : l.charge params who now = some l') :
    (l.slide params now).retained < params.globalPerWindow ∧
      (l.slide params now).retainedFor who < params.perSignerPerWindow ∧
      l' = ⟨(l.slide params now).events ++ [(who, now)]⟩ := by
  rw [EntryRateLedger.charge] at h
  by_cases hfull : (l.slide params now).retained ≥ params.globalPerWindow ∨
      (l.slide params now).retainedFor who ≥ params.perSignerPerWindow
  · rw [if_pos hfull] at h
    exact nomatch h
  · rw [if_neg hfull] at h
    rw [not_or, Nat.not_le, Nat.not_le] at hfull
    exact ⟨hfull.1, hfull.2, (Option.some.inj h).symm⟩

/-- A charge is refused only where one of the two limits is reached in the window that ends now. -/
theorem Ledgered.charge_isSome_iff (h : Ledgered params now l log) :
    (l.charge params who now).isSome = true ↔
      windowCount params now log < params.globalPerWindow ∧
        windowCountOf params who now log < params.perSignerPerWindow := by
  rw [← h.retained, ← h.retainedFor who]
  constructor
  · intro hsome
    obtain ⟨l', hl⟩ := Option.isSome_iff_exists.1 hsome
    exact ⟨(charge_eq_some hl).1, (charge_eq_some hl).2.1⟩
  · rintro ⟨hall, hmine⟩
    rw [EntryRateLedger.charge, if_neg (not_or.2 ⟨Nat.not_le.2 hall, Nat.not_le.2 hmine⟩)]
    rfl

/-- The window counted on the times of part of the log. -/
theorem countP_times (p : EntryEvent → Bool) (a : Nat) :
    ((log.filter p).map Prod.snd).countP (fun t => decide (a < t)) =
      log.countP fun e => p e && decide (a < e.2) := by
  rw [List.countP_map, List.countP_filter]
  exact List.countP_congr fun e _ => by rw [Function.comp_apply, Bool.and_comm]

/-- A charge that is not refused keeps the rates. -/
theorem Ledgered.charge (h : Ledgered params now l log) (hcharge : l.charge params who now = some l') :
    Ledgered params now l' ((who, now) :: log) := by
  obtain ⟨hall, hmine, rfl⟩ := charge_eq_some hcharge
  rw [h.retained] at hall
  rw [h.retainedFor who] at hmine
  refine ⟨h.tracks.push (who, now), ?_, fun p => ?_⟩
  · refine h.rates.all.push ?_
    rw [List.countP_map]
    exact hall
  · by_cases hp : who = p
    · subst hp
      rw [List.filter_cons_of_pos (by simp), List.map_cons]
      refine (h.rates.each who).push ?_
      rw [countP_times]
      exact hmine
    · rw [List.filter_cons_of_neg (by simpa using hp)]
      exact h.rates.each p

end Charging

end StshProtocol.Custody

/-! Companion indexes and their accounting.

What is active on a plane is listed in a few indexes, written together with the records. How many
entries they have, how many bytes, and the exclusive or of the digests of all of them are accounted
for in one sealed cell. Before the absence of an entry is believed, the accounting is computed anew
from the indexes and compared; a disagreement is a trap, and nothing repairs it. -/
namespace StshProtocol.Custody
open Foundation ShieldedPool

instance principalNatOrd : Ord (Principal × Nat) := lexOrd
instance natNatOrd : Ord (Nat × Nat) := lexOrd

instance : Std.TransOrd (Principal × Nat) := inferInstance

/-- `u64::to_be_bytes`. -/
def be64 (n : Nat) : Bytes := Bytes.toBe 8 n

/-- A digest as the 32 bytes that are hashed again. -/
def digestBytes (d : Bytes32) : Bytes := Bytes.toBe 32 d.toNat

/-- Why a message is rolled back. -/
inductive Trap where
  | companionAbsent
  | sealBroken
  | companionDisagrees
  | idOccupied
  | idNotAllocated
  | idSpaceExhausted
  | recordMissing
  | uninitialized
  | insertOnce
  | governedStateInvalid
  | quorumInvalid
  deriving DecidableEq, Repr

/-! ### Accounting -/

structure Accounting where
  entries : Nat
  bytes : Nat
  entryAcc : Bytes32
  deriving DecidableEq, Repr

namespace Accounting

def zero : Accounting := ⟨0, 0, 0⟩

/-- `companion_apply`: inserting and removing move the exclusive or alike. -/
def apply (a : Accounting) (digest : Bytes32) (bytes : Nat) (insert : Bool) : Accounting :=
  if insert then ⟨satAdd64 a.entries 1, satAdd64 a.bytes bytes, a.entryAcc ^^^ digest⟩
  else ⟨a.entries - 1, a.bytes - bytes, a.entryAcc ^^^ digest⟩

end Accounting

/-- What one entry of an index counts for. -/
structure Companion (κ ν : Type) where
  digest : κ → ν → Bytes32
  bytes : κ → ν → Nat

namespace Companion
variable {κ ν : Type} [Ord κ] [Std.TransOrd κ]

/-- The entry is removed, and accounted for if it was there. -/
def remove (C : Companion κ ν) (k : κ) (x : StableMap κ ν × Accounting) : StableMap κ ν × Accounting :=
  match x.1[k]? with
  | some v => (x.1.erase k, x.2.apply (C.digest k v) (C.bytes k v) false)
  | none => (x.1.erase k, x.2)

/-- The entry is written, and accounted for if it was not there. -/
def insert (C : Companion κ ν) (k : κ) (v : ν) (x : StableMap κ ν × Accounting) :
    StableMap κ ν × Accounting :=
  if x.1.contains k then (x.1.insert k v, x.2)
  else (x.1.insert k v, x.2.apply (C.digest k v) (C.bytes k v) true)

/-- Every entry of the index, accounted for anew. -/
def recount (C : Companion κ ν) (m : StableMap κ ν) (a : Accounting) : Accounting :=
  m.toList.foldl (fun a e => a.apply (C.digest e.1 e.2) (C.bytes e.1 e.2) true) a

/-- An entry is removed, and then one written. -/
def move (C : Companion κ ν) (old : Option κ) (new : Option (κ × ν)) (x : StableMap κ ν × Accounting) :
    StableMap κ ν × Accounting :=
  let x := match old with
    | some k => C.remove k x
    | none => x
  match new with
  | some (k, v) => C.insert k v x
  | none => x

end Companion

/-! ### What the accounting stands for

The accounting of a list of entries, each a digest and a size, does not depend on their order. While
the list is counted in 64 bits, removing an entry undoes inserting it. -/

namespace Accounting
variable {l l' : List (Bytes32 × Nat)} {e : Bytes32 × Nat} {a : Accounting}

end Accounting

namespace Companion
variable {κ ν : Type} [Ord κ] [Std.TransOrd κ] {C : Companion κ ν}
  {m : StableMap κ ν} {rest : List (Bytes32 × Nat)} {k : κ} {v : ν} {a : Accounting}

variable [Std.LawfulEqOrd κ]

end Companion

/-! ### Nonterminal proposals -/

/-- The index of open proposals: `(proposer, id)`. -/
abbrev NonterminalIndex : Type := StableMap (Principal × Nat) Unit

/-- How many open proposals are of one proposer. -/
def nonterminalOf (index : NonterminalIndex) (who : Principal) : Nat :=
  index.toList.countP fun e => decide (e.1.1 = who)

end StshProtocol.Custody
