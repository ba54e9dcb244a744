import StshProtocol.Vetkeys.State

/-! Sightings of a balance.

A principal's first derive is only admitted once its balance has been seen at or above the floor
twice, some time apart. A sighting is a row with the time of the first, and an index entry under
the time at which it will expire; a call first reclaims a few expired rows. A full table gives
up its oldest row for a new one. Where a row and its entry do not match, the message traps. -/
namespace StshProtocol.Vetkeys
open Foundation ShieldedPool Vesting

inductive AgeVerdict where
  | admitted
  | notYet (retryAfterNs : Nat)
  | anomalous (retryAfterNs : Nat)
  deriving DecidableEq, Repr

def evaluateAge (nowNs firstSeenAtNs : Nat) : AgeVerdict :=
  if firstSeenAtNs ≤ nowNs then
    if eligibilityMinAgeNs ≤ nowNs - firstSeenAtNs then .admitted
    else .notYet (eligibilityMinAgeNs - (nowNs - firstSeenAtNs))
  else .anomalous (satAdd64 (firstSeenAtNs - nowNs) eligibilityMinAgeNs)

/-- A row's index entry. -/
def expiryKey (who : PrincipalKey) (firstSeenAtNs : Nat) : TimeKey PrincipalKey :=
  ⟨satAdd64 firstSeenAtNs sightingRetentionNs, who⟩

/-- A time too far ahead for its expiry to be told has not expired. -/
def ExpiredAt (nowNs firstSeenAtNs : Nat) : Prop :=
  firstSeenAtNs + sightingRetentionNs ≤ u64Max ∧ firstSeenAtNs + sightingRetentionNs < nowNs

instance (nowNs firstSeenAtNs : Nat) : Decidable (ExpiredAt nowNs firstSeenAtNs) :=
  inferInstanceAs (Decidable (_ ∧ _))

namespace Sightings

/-- The sightings and their index. -/
abbrev Table : Type := Timed PrincipalKey Nat

/-- One victim is taken out of both, or `none` if they do not match there. -/
def removeVictim (b : Table) (k : TimeKey PrincipalKey) : Option Table :=
  if b.byTime.contains k ∧ b.rows[k.key]?.map (expiryKey k.key) = some k then
    some ⟨b.rows.erase k.key, b.byTime.erase k⟩
  else none

def pruneExpired (nowNs : Nat) (b : Table) : Option Table :=
  let victims := (b.byTime.keys.takeWhile fun k => decide (k.time < nowNs)).take sightingPruneMax
  victims.foldlM removeVictim b

/-- The oldest row is taken out. -/
def evictOldest (b : Table) : Option Table := b.byTime.keys.head?.bind (removeVictim b)

def insert (who : PrincipalKey) (nowNs : Nat) (b : Table) : Option Table :=
  if b.byTime.contains (expiryKey who nowNs) then none
  else some ⟨b.rows.insert who nowNs, b.byTime.insert (expiryKey who nowNs) ()⟩

def renew (who : PrincipalKey) (storedFirstSeenNs nowNs : Nat) (b : Table) : Option Table :=
  if b.byTime.contains (expiryKey who storedFirstSeenNs) then
    let index := (b.byTime.erase (expiryKey who storedFirstSeenNs)).insert (expiryKey who nowNs) ()
    some ⟨b.rows.insert who nowNs, index⟩
  else none

inductive SightingOutcome where
  | inserted
  | renewed
  | admitted
  | notYet (retryAfterNs : Nat)
  | anomalous (retryAfterNs : Nat)
  deriving DecidableEq, Repr

/-- A row that is still valid is told its age. -/
def judge (nowNs firstSeenAtNs : Nat) : SightingOutcome :=
  match evaluateAge nowNs firstSeenAtNs with
  | .admitted => .admitted
  | .notYet retryAfterNs => .notYet retryAfterNs
  | .anomalous retryAfterNs => .anomalous retryAfterNs

/-- The decision and the table it leaves; `none` is a trap. -/
def decide (nowNs : Nat) (caller : PrincipalKey) (b : Table) : Option (SightingOutcome × Table) := do
  let b ← pruneExpired nowNs b
  match b.rows[caller]? with
  | some firstSeenAtNs =>
    if ExpiredAt nowNs firstSeenAtNs then
      return (.renewed, ← renew caller firstSeenAtNs nowNs b)
    else return (judge nowNs firstSeenAtNs, b)
  | none =>
    let b ← if maxSightings ≤ b.rows.size then evictOldest b else some b
    return (.inserted, ← insert caller nowNs b)

/-- The row of a principal whose derive is done goes from both. -/
def clearOnSuccess (who : PrincipalKey) (b : Table) : Option Table :=
  match b.rows[who]? with
  | some firstSeenAtNs =>
    if b.byTime.contains (expiryKey who firstSeenAtNs) then
      some ⟨b.rows.erase who, b.byTime.erase (expiryKey who firstSeenAtNs)⟩
    else none
  | none => if b.byTime.keys.any fun k => k.key == who then none else some b

end Sightings

end StshProtocol.Vetkeys
