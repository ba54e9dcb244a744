import StshProtocol.Foundation.Promises
import StshProtocol.Wallet.Envelope

/-! How a tab comes by its key.

An acquisition opens this device's envelope, and only where there is none it derives the key anew
and enrols the device. The calls of a tab share acquisitions: one that finds another of its
principal in flight, on the same actor, is given that one's promise. -/
namespace StshProtocol.Wallet.KeyAccess
open Foundation ShieldedPool
open Vesting (PrincipalBytes)

/-! ### Acquisitions -/

/-- A device as a browser keeps it, but for the handles of its keys. -/
structure DeviceIdentity where
  deviceId : JsString
  encSpki : Bytes
  signSpki : Bytes
  deriving DecidableEq

structure DeriveResult where
  encryptedKey : Bytes
  remaining : Nat
  deriving DecidableEq

structure FetchedKeys where
  vetKey : Bytes
  verificationKey : Bytes
  remaining : Option Nat
  deriving DecidableEq

/-- Why a canister does not give an envelope. -/
inductive VetkeysCallError where
  | unknownDevice
  | deviceRevoked
  | other
  deriving DecidableEq

inductive AcquireError where
  | layer1Unavailable
  | passcodeNotProvided
  | malformedEnvelope
  | failed
  deriving DecidableEq

/-- What is awaited. -/
inductive KeyAction (Actor : Type) where
  | loadDevice
  | getWrappedSecret (canister : Actor) (deviceId : JsString)
  | requestPasscode
  | openVetKeyEnvelope (envelope : Bytes) (device : DeviceIdentity) (passcode : Option JsString)
  | getVetkeyVerificationKey (canister : Actor)
  | getEncryptedVetkey (canister : Actor)
  | createDevice
  | wrapVetKeyForDevice (device : DeviceIdentity) (vetKey : Bytes)
  | registerDevice (canister : Actor) (device : DeviceIdentity) (envelope : Bytes)
  | saveDevice (device : DeviceIdentity)
  deriving DecidableEq

/-- What it is awaited for; anything may fail. -/
def Reply {Actor : Type} : KeyAction Actor → Type
  | .loadDevice => Except Unit (Option DeviceIdentity)
  | .getWrappedSecret .. => Except VetkeysCallError Bytes
  | .requestPasscode => Except Unit (Option JsString)
  | .openVetKeyEnvelope .. => Except Unit Bytes
  | .getVetkeyVerificationKey _ => Except Unit Bytes
  | .getEncryptedVetkey _ => Except Unit DeriveResult
  | .createDevice => Except Unit DeviceIdentity
  | .wrapVetKeyForDevice .. => Except Unit Bytes
  | .registerDevice .. => Except Unit Unit
  | .saveDevice _ => Except Unit Unit

/-- The vetKD library: reading a verification key, and decrypting a derived key for a principal. -/
structure KeyEnv where
  deserialize : Bytes → Option Bytes
  decryptAndVerify : DeriveResult → Bytes → PrincipalBytes → Option Bytes

section Programs
variable {Actor : Type} (K : KeyEnv) (canister : Actor)

abbrev Program (Actor α : Type) : Type := Async (KeyAction Actor) Reply AcquireError α

def orFail {α : Type} : Except Unit α → Program Actor α
  | .ok a => .done a
  | .error () => .throw .failed

def orElse {α : Type} (e : AcquireError) : Option α → Program Actor α
  | some a => .done a
  | none => .throw e

def loadDevice : Program Actor (Option DeviceIdentity) := .await .loadDevice orFail

def getWrappedSecret (deviceId : JsString) : Program Actor Bytes :=
  .await (.getWrappedSecret canister deviceId) fun
    | .ok envelope => .done envelope
    | .error .unknownDevice => .throw .layer1Unavailable
    | .error .deviceRevoked => .throw .layer1Unavailable
    | .error .other => .throw .failed

/-- The passcode of an envelope that needs one. -/
def passcodeFor (envelope : Bytes) : Program Actor (Option JsString) :=
  match Envelope.decodeEnvelope envelope with
  | .error _ => .throw .malformedEnvelope
  | .ok decoded =>
    match decoded.header.mode with
    | .iiOnly => .done none
    | .passcode => do
      let supplied ← .await .requestPasscode orFail
      let passcode ← orElse .passcodeNotProvided supplied
      return some passcode

def openThisDevicesEnvelope (device : DeviceIdentity) : Program Actor (Bytes × Bytes) := do
  let envelope ← getWrappedSecret canister device.deviceId
  let passcode ← passcodeFor envelope
  let vetKey ← .await (.openVetKeyEnvelope envelope device passcode) orFail
  return (vetKey, envelope)

def getVetkeyVerificationKey : Program Actor Bytes := do
  let bytes ← .await (.getVetkeyVerificationKey canister) orFail
  orElse .failed (K.deserialize bytes)

/-- Layer 1: this device's envelope is opened. -/
def openedKeys (device : DeviceIdentity) : Program Actor FetchedKeys := do
  let (vetKey, _) ← openThisDevicesEnvelope canister device
  let verificationKey ← getVetkeyVerificationKey K canister
  return ⟨vetKey, verificationKey, none⟩

def fetchUserVetKey (userPrincipal : PrincipalBytes) : Program Actor FetchedKeys := do
  let verificationKey ← getVetkeyVerificationKey K canister
  let derived ← .await (.getEncryptedVetkey canister) orFail
  let vetKey ← orElse .failed (K.decryptAndVerify derived verificationKey userPrincipal)
  return ⟨vetKey, verificationKey, some derived.remaining⟩

def enrollDevice (device : DeviceIdentity) (vetKey : Bytes) : Program Actor Unit := do
  let envelope ← .await (.wrapVetKeyForDevice device vetKey) orFail
  .await (.registerDevice canister device envelope) orFail

/-- Layer 2: the key is derived, and this device is enrolled. -/
def derivedKeys (principal : PrincipalBytes) : Program Actor FetchedKeys := do
  let derived ← fetchUserVetKey K canister principal
  let device ← .await .createDevice orFail
  enrollDevice canister device derived.vetKey
  .await (.saveDevice device) orFail
  return derived

/-- `createSessionFetchKeys`. -/
def sessionFetchKeys (principal : PrincipalBytes) : Program Actor FetchedKeys := do
  let existing ← loadDevice
  match existing with
  | some device =>
    (openedKeys K canister device).tryCatch fun e =>
      if e = .layer1Unavailable then derivedKeys K canister principal else .throw e
  | none => derivedKeys K canister principal

end Programs

/-! ### One tab -/

/-- What the canister knows of a device. -/
inductive DeviceStatus where
  | unknown
  | revoked
  | registered (envelope : Bytes)
  deriving DecidableEq

/-- The device this browser saved, and the devices the canister knows, by whose they are. -/
structure Records where
  store : Option DeviceIdentity
  status : PrincipalBytes → JsString → DeviceStatus

structure Acquisition (Actor : Type) where
  canister : Actor
  principal : PrincipalBytes
  flight : Flight (KeyAction Actor) Reply AcquireError FetchedKeys
  /-- Its settle callback has run. -/
  released : Bool

/-- A call, and the acquisition whose promise it was given. -/
structure Caller (Actor : Type) where
  canister : Actor
  principal : PrincipalBytes
  acquisition : Nat

structure KeyTab (Actor : Type) where
  records : Records
  acquisitions : Nat → Option (Acquisition Actor)
  next : Nat
  inFlight : PrincipalBytes → Option (Actor × Nat)
  callers : List (Caller Actor)

namespace KeyTab
variable {Actor : Type} [DecidableEq Actor] (K : KeyEnv) (w : KeyTab Actor)

def join (canister : Actor) (principal : PrincipalBytes) (t : Nat) : KeyTab Actor :=
  {w with callers := ⟨canister, principal, t⟩ :: w.callers}

def start (canister : Actor) (principal : PrincipalBytes) : KeyTab Actor :=
  {w with
    acquisitions := Function.update w.acquisitions w.next
      (some ⟨canister, principal, .start (sessionFetchKeys K canister principal), false⟩)
    next := w.next + 1
    inFlight := Function.update w.inFlight principal (some (canister, w.next))
    callers := ⟨canister, principal, w.next⟩ :: w.callers}

/-- A call of `singleFlightFetchKeys`. -/
def fetchKeys (canister : Actor) (principal : PrincipalBytes) : KeyTab Actor :=
  match w.inFlight principal with
  | some (running, t) => if running = canister then w.join canister principal t
    else w.start K canister principal
  | none => w.start K canister principal

def put (t : Nat) (a : Acquisition Actor) : KeyTab Actor :=
  {w with acquisitions := Function.update w.acquisitions t (some a)}

/-- The settle callback of an acquisition: it deletes the entry if the entry is its own. -/
def release (t : Nat) (a : Acquisition Actor) : KeyTab Actor :=
  {w.put t {a with released := true} with
    inFlight :=
      if w.inFlight a.principal = some (a.canister, t) then
        Function.update w.inFlight a.principal none
      else w.inFlight}

end KeyTab

/-- What may be answered, and what it leaves. The canister tells the truth of the devices of the
principal an actor calls as; what it is asked to write may be written although the answer is lost,
and so in the browser's own store. -/
def Serves {Actor : Type} (identity : Actor → PrincipalBytes) (s : Records) :
    (act : KeyAction Actor) → Reply act → Records → Prop
  | .loadDevice, x, s' => s' = s ∧ ∀ found, x = .ok found → found = s.store
  | .getWrappedSecret canister deviceId, x, s' =>
    s' = s ∧ (x = .error .unknownDevice → s.status (identity canister) deviceId = .unknown) ∧
      (x = .error .deviceRevoked → s.status (identity canister) deviceId = .revoked) ∧
      ∀ envelope, x = .ok envelope → s.status (identity canister) deviceId = .registered envelope
  | .registerDevice canister device envelope, x, s' =>
    let status := Function.update s.status (identity canister)
      (Function.update (s.status (identity canister)) device.deviceId (.registered envelope))
    s' = {s with status := status} ∨ s' = s ∧ x = .error ()
  | .saveDevice device, x, s' => s' = {s with store := some device} ∨ s' = s ∧ x = .error ()
  | .requestPasscode, _, s' => s' = s
  | .openVetKeyEnvelope .., _, s' => s' = s
  | .getVetkeyVerificationKey _, _, s' => s' = s
  | .getEncryptedVetkey _, _, s' => s' = s
  | .createDevice, _, s' => s' = s
  | .wrapVetKeyForDevice .., _, s' => s' = s

inductive KeyEvent (Actor : Type) where
  | call (canister : Actor) (principal : PrincipalBytes)
  | answer (t : Nat)
  | deliver (t : Nat)
  | release (t : Nat)
  /-- The canister revokes, forgets or enrols devices by itself. -/
  | canister

section Runs
variable {Actor : Type} [DecidableEq Actor] (K : KeyEnv) (identity : Actor → PrincipalBytes)

inductive KeyStep : KeyTab Actor → KeyEvent Actor → KeyTab Actor → Prop where
  | call (w : KeyTab Actor) (canister : Actor) (principal : PrincipalBytes) :
      KeyStep w (.call canister principal) (w.fetchKeys K canister principal)
  | answer {w : KeyTab Actor} {t : Nat} {a : Acquisition Actor} {act : KeyAction Actor}
      {k : Reply act → Program Actor FetchedKeys} {x : Reply act} {records : Records}
      (ha : w.acquisitions t = some a) (hk : a.flight.progress = .waiting act k none)
      (hx : Serves identity w.records act x records) :
      KeyStep w (.answer t) {w.put t {a with flight := a.flight.answer act k x} with records := records}
  | deliver {w : KeyTab Actor} {t : Nat} {a : Acquisition Actor} {act : KeyAction Actor}
      {k : Reply act → Program Actor FetchedKeys} {x : Reply act}
      (ha : w.acquisitions t = some a) (hk : a.flight.progress = .waiting act k (some x)) :
      KeyStep w (.deliver t) (w.put t {a with flight := a.flight.deliver act k x})
  | release {w : KeyTab Actor} {t : Nat} {a : Acquisition Actor}
      {r : Except AcquireError FetchedKeys} (ha : w.acquisitions t = some a)
      (hr : a.flight.progress = .settled r) (hreleased : a.released = false) :
      KeyStep w (.release t) (w.release t a)
  | canister {w : KeyTab Actor} (status : PrincipalBytes → JsString → DeviceStatus) :
      KeyStep w .canister {w with records := {w.records with status := status}}

/-- A tab that was just opened. -/
def keyTab : System (KeyTab Actor) (KeyEvent Actor) where
  init w := w.acquisitions = (fun _ => none) ∧ w.inFlight = (fun _ => none) ∧ w.callers = []
  step := KeyStep K identity

/-- A call for this principal comes with the actor of the acquisition in flight for it. -/
def SameCanister (principal : PrincipalBytes) (w : KeyTab Actor) : KeyEvent Actor → Prop
  | .call canister p =>
    p = principal → ∀ running t, w.inFlight principal = some (running, t) → running = canister
  | _ => True

end Runs

/-! ### Before a derive -/

section Text
variable {Actor : Type} (K : KeyEnv) (canister : Actor) (principal : PrincipalBytes)

/-- The canister answered that it has no envelope for a device this browser had saved. -/
def NotServed (seen : Transcript (KeyAction Actor) Reply) : Prop :=
  ∃ device : DeviceIdentity, ⟨.loadDevice, .ok (some device)⟩ ∈ seen ∧
    (⟨.getWrappedSecret canister device.deviceId, .error .unknownDevice⟩ ∈ seen ∨
      ⟨.getWrappedSecret canister device.deviceId, .error .deviceRevoked⟩ ∈ seen)

/-- There is reason to derive. -/
def Justified (seen : Transcript (KeyAction Actor) Reply) : Prop :=
  ⟨.loadDevice, .ok none⟩ ∈ seen ∨ NotServed canister seen

/-- A derive has a reason. -/
def Checked (seen : Transcript (KeyAction Actor) Reply) (act : KeyAction Actor) : Prop :=
  ∀ c, act = .getEncryptedVetkey c → Justified canister seen

theorem justified_cons {seen : Transcript (KeyAction Actor) Reply} (x : Σ act, Reply act)
    (h : Justified canister seen) : Justified canister (x :: seen) := by
  rcases h with h | ⟨device, hload, h | h⟩
  · exact .inl (List.mem_cons_of_mem _ h)
  · exact .inr ⟨device, List.mem_cons_of_mem _ hload, .inl (List.mem_cons_of_mem _ h)⟩
  · exact .inr ⟨device, List.mem_cons_of_mem _ hload, .inr (List.mem_cons_of_mem _ h)⟩

theorem derived_along {seen : Transcript (KeyAction Actor) Reply} (h : Justified canister seen) :
    (derivedKeys K canister principal).Along (Checked canister) (fun _ _ => True) seen :=
  (Async.along_of_stable (fun _ x => justified_cons canister x) (fun _ _ h _ _ => h) _ h).weaken
    fun _ _ _ => trivial

/-- A part of layer 1 behind the query. -/
def Quiet {α : Type} (p : Program Actor α) : Prop :=
  ∀ seen, p.Along (Checked canister) (fun _ r => r ≠ .error .layer1Unavailable) seen

theorem quiet_bind {α β : Type} {p : Program Actor α} {f : α → Program Actor β}
    (hp : Quiet canister p) (hf : ∀ a, Quiet canister (f a)) : Quiet canister (p >>= f) :=
  fun seen => (hp seen).bind (fun seen a _ => hf a seen) fun _ _ he h =>
    he (congrArg Except.error (Except.error.inj h))

theorem quiet_done {α : Type} (a : α) : Quiet canister (.done a : Program Actor α) := fun _ => nofun

theorem quiet_orElse {α : Type} {e : AcquireError} (he : e ≠ .layer1Unavailable) (a : Option α) :
    Quiet canister (orElse e a : Program Actor α) := by
  intro seen
  cases a with
  | none => exact fun h => he (Except.error.inj h)
  | some a => exact nofun

theorem quiet_await {α : Type} {act : KeyAction Actor} (hact : ∀ c, act ≠ .getEncryptedVetkey c)
    {k : Reply act → Program Actor α} (hk : ∀ x, Quiet canister (k x)) :
    Quiet canister (.await act k) :=
  fun _ => ⟨fun c h => absurd h (hact c), fun x => hk x _⟩

theorem quiet_orFail {α : Type} (x : Except Unit α) : Quiet canister (orFail x : Program Actor α) := by
  intro seen
  cases x <;> exact nofun

theorem quiet_passcodeFor (envelope : Bytes) :
    Quiet canister (passcodeFor envelope : Program Actor (Option JsString)) := by
  unfold passcodeFor
  cases Envelope.decodeEnvelope envelope with
  | error e => exact fun _ => nofun
  | ok decoded =>
    dsimp only
    cases decoded.header.mode with
    | iiOnly => exact quiet_done canister none
    | passcode =>
      refine quiet_bind canister (quiet_await canister (by nofun) (quiet_orFail canister)) ?_
      intro supplied
      refine quiet_bind canister (quiet_orElse canister (by nofun) supplied) fun passcode => ?_
      exact quiet_done canister (some passcode)

theorem quiet_verificationKey : Quiet canister (getVetkeyVerificationKey K canister) :=
  quiet_bind canister (quiet_await canister (by nofun) (quiet_orFail canister)) fun _ =>
    quiet_orElse canister (by nofun) _

/-- Layer 1 is unavailable only where the canister has no envelope for the device. -/
theorem opened_along {seen : Transcript (KeyAction Actor) Reply} {device : DeviceIdentity}
    (hload : ⟨.loadDevice, .ok (some device)⟩ ∈ seen) :
    (openedKeys K canister device).Along (Checked canister)
      (fun seen r => r = .error .layer1Unavailable → NotServed canister seen) seen := by
  have hopened : (openThisDevicesEnvelope canister device).Along (Checked canister)
      (fun seen r => r = .error .layer1Unavailable → NotServed canister seen) seen := by
    refine ⟨nofun, fun x => ?_⟩
    cases x with
    | error e =>
      cases e with
      | unknownDevice =>
        exact fun _ => ⟨device, List.mem_cons_of_mem _ hload, .inl List.mem_cons_self⟩
      | deviceRevoked =>
        exact fun _ => ⟨device, List.mem_cons_of_mem _ hload, .inr List.mem_cons_self⟩
      | other => exact nofun
    | ok envelope =>
      have hquiet : Quiet canister (do
          let passcode ← passcodeFor envelope
          let vetKey ← .await (.openVetKeyEnvelope envelope device passcode) orFail
          return (vetKey, envelope) : Program Actor (Bytes × Bytes)) := by
        refine quiet_bind canister (quiet_passcodeFor canister envelope) fun passcode => ?_
        refine quiet_bind canister (quiet_await canister (by nofun) (quiet_orFail canister)) fun _ => ?_
        exact quiet_done canister _
      exact (hquiet _).weaken fun _ _ hne h => absurd h hne
  refine hopened.bind (fun seen opened _ => ?_) fun _ _ h he =>
    h (congrArg Except.error (Except.error.inj he))
  have hquiet : Quiet canister (do
      let verificationKey ← getVetkeyVerificationKey K canister
      return (⟨opened.1, verificationKey, none⟩ : FetchedKeys)) :=
    quiet_bind canister (quiet_verificationKey K canister) fun _ => quiet_done canister _
  exact (hquiet seen).weaken fun _ _ hne h => absurd h hne

/-- An acquisition derives only for a reason. -/
theorem session_along :
    (sessionFetchKeys K canister principal).Along (Checked canister) (fun _ _ => True) [] := by
  refine ⟨nofun, fun x => ?_⟩
  cases x with
  | error e => trivial
  | ok existing =>
    cases existing with
    | none => exact derived_along K canister principal (.inl List.mem_cons_self)
    | some device =>
      refine (opened_along K canister List.mem_cons_self).tryCatch (fun _ _ _ => trivial) ?_
      intro seen e he
      by_cases hunavailable : e = .layer1Unavailable
      · rw [if_pos hunavailable]
        exact derived_along K canister principal (.inr (he (by rw [hunavailable])))
      · rw [if_neg hunavailable]
        trivial

end Text

/-! ### Any calls of a tab -/

section Kept
variable {Actor : Type} {K : KeyEnv} {identity : Actor → PrincipalBytes} {w w' : KeyTab Actor}
  {e : KeyEvent Actor}

/-- What holds of the acquisitions of a tab. -/
structure Tracked (w : KeyTab Actor) : Prop where
  numbered : ∀ t a, w.acquisitions t = some a → t < w.next
  /-- An entry is of an acquisition whose settle callback has not run. -/
  entry : ∀ p c t, w.inFlight p = some (c, t) →
    ∃ a, w.acquisitions t = some a ∧ a.canister = c ∧ a.principal = p ∧ a.released = false
  released : ∀ t a, w.acquisitions t = some a → a.released = true → ∃ r, a.flight.progress = .settled r
  along : ∀ t a, w.acquisitions t = some a →
    a.flight.Along (Checked a.canister) fun _ _ => True
  /-- What a caller was given is an acquisition of its principal, on its actor. -/
  given : ∀ c ∈ w.callers, ∃ a, w.acquisitions c.acquisition = some a ∧ a.canister = c.canister ∧
    a.principal = c.principal

theorem acquisition_cases {acquisitions : Nat → Option (Acquisition Actor)} {t u : Nat}
    {a b : Acquisition Actor} (h : Function.update acquisitions t (some a) u = some b) :
    u = t ∧ a = b ∨ u ≠ t ∧ acquisitions u = some b := by
  by_cases hu : u = t
  · rw [hu, Function.update_self] at h
    exact .inl ⟨hu, Option.some.inj h⟩
  · rw [Function.update_of_ne hu] at h
    exact .inr ⟨hu, h⟩

/-- An acquisition moves on, for the same call. -/
structure Moves (a b : Acquisition Actor) : Prop where
  canister : b.canister = a.canister
  principal : b.principal = a.principal
  settled : ∀ r, a.flight.progress = .settled r → b.flight.progress = .settled r

theorem Moves.refl (a : Acquisition Actor) : Moves a a := ⟨rfl, rfl, fun _ => id⟩

theorem Moves.trans {a b c : Acquisition Actor} (h : Moves a b) (h' : Moves b c) : Moves a c :=
  ⟨h'.canister.trans h.canister, h'.principal.trans h.principal,
    fun r hr => h'.settled r (h.settled r hr)⟩

/-- One that waits moves on to anything. -/
theorem moves_of_waiting {a b : Acquisition Actor} {act : KeyAction Actor}
    {k : Reply act → Program Actor FetchedKeys} {reply : Option (Reply act)}
    (hk : a.flight.progress = .waiting act k reply) (hcanister : b.canister = a.canister)
    (hprincipal : b.principal = a.principal) : Moves a b :=
  ⟨hcanister, hprincipal, fun _ hr => nomatch hk.symm.trans hr⟩

theorem put_moves {t : Nat} {a b : Acquisition Actor} (ha : w.acquisitions t = some a)
    (hab : Moves a b) {v : Nat} {c : Acquisition Actor} (hc : w.acquisitions v = some c) :
    ∃ d, (w.put t b).acquisitions v = some d ∧ Moves c d := by
  show ∃ d, Function.update w.acquisitions t (some b) v = some d ∧ _
  by_cases hv : v = t
  · subst hv
    rw [Function.update_self]
    obtain rfl := Option.some.inj (ha.symm.trans hc)
    exact ⟨b, rfl, hab⟩
  · rw [Function.update_of_ne hv]
    exact ⟨c, hc, .refl c⟩

theorem start_moves (hw : Tracked w) (canister : Actor) (principal : PrincipalBytes) {v : Nat}
    {c : Acquisition Actor} (hc : w.acquisitions v = some c) :
    (w.start K canister principal).acquisitions v = some c := by
  have hv : v ≠ w.next := Nat.ne_of_lt (hw.numbered v c hc)
  show Function.update w.acquisitions w.next _ v = _
  rw [Function.update_of_ne hv, hc]

theorem Tracked.start (hw : Tracked w) (canister : Actor) (principal : PrincipalBytes) :
    Tracked (w.start K canister principal) := by
  have hkeep : ∀ {t a}, w.acquisitions t = some a →
      (w.start K canister principal).acquisitions t = some a :=
    fun ha => start_moves hw canister principal ha
  constructor
  case numbered =>
    intro t a ha
    rcases acquisition_cases ha with ⟨rfl, -⟩ | ⟨-, ha⟩
    · exact Nat.lt_succ_self _
    · exact Nat.lt_succ_of_lt (hw.numbered t a ha)
  case entry =>
    intro p c t hentry
    by_cases hp : p = principal
    · change Function.update w.inFlight principal (some (canister, w.next)) p = some (c, t) at hentry
      rw [hp, Function.update_self, Option.some.injEq, Prod.mk.injEq] at hentry
      obtain ⟨rfl, rfl⟩ := hentry
      exact ⟨_, Function.update_self .., rfl, hp.symm, rfl⟩
    · change Function.update w.inFlight principal (some (canister, w.next)) p = some (c, t) at hentry
      rw [Function.update_of_ne hp] at hentry
      obtain ⟨a, ha, hrest⟩ := hw.entry p c t hentry
      exact ⟨a, hkeep ha, hrest⟩
  case released =>
    intro t a ha hreleased
    rcases acquisition_cases ha with ⟨-, rfl⟩ | ⟨-, ha⟩
    · exact nomatch hreleased
    · exact hw.released t a ha hreleased
  case along =>
    intro t a ha
    rcases acquisition_cases ha with ⟨-, rfl⟩ | ⟨-, ha⟩
    · exact Flight.along_of (session_along K canister principal)
    · exact hw.along t a ha
  case given =>
    intro c hc
    rcases List.mem_cons.1 hc with rfl | hc
    · exact ⟨_, Function.update_self .., rfl, rfl⟩
    · obtain ⟨a, ha, hrest⟩ := hw.given c hc
      exact ⟨a, hkeep ha, hrest⟩

theorem Tracked.join (hw : Tracked w) {canister : Actor} {principal : PrincipalBytes} {t : Nat}
    (hentry : w.inFlight principal = some (canister, t)) : Tracked (w.join canister principal t) := by
  refine ⟨hw.numbered, hw.entry, hw.released, hw.along, fun c hc => ?_⟩
  rcases List.mem_cons.1 hc with rfl | hc
  · obtain ⟨a, ha, hcanister, hprincipal, -⟩ := hw.entry _ _ _ hentry
    exact ⟨a, ha, hcanister, hprincipal⟩
  · exact hw.given c hc

/-- The program of an acquisition goes on. -/
theorem Tracked.put (hw : Tracked w) {t : Nat} {a : Acquisition Actor}
    {f : Flight (KeyAction Actor) Reply AcquireError FetchedKeys} (ha : w.acquisitions t = some a)
    (hreleased : a.released = false) (halong : f.Along (Checked a.canister) fun _ _ => True) :
    Tracked (w.put t {a with flight := f}) := by
  have hmoves : ∀ {v c}, w.acquisitions v = some c →
      ∃ d, (w.put t {a with flight := f}).acquisitions v = some d ∧ d.canister = c.canister ∧
        d.principal = c.principal ∧ d.released = c.released := by
    intro v c hc
    show ∃ d, Function.update w.acquisitions t _ v = some d ∧ _
    by_cases hv : v = t
    · subst hv
      rw [Function.update_self]
      obtain rfl := Option.some.inj (ha.symm.trans hc)
      exact ⟨_, rfl, rfl, rfl, rfl⟩
    · rw [Function.update_of_ne hv]
      exact ⟨c, hc, rfl, rfl, rfl⟩
  constructor
  case numbered =>
    intro v b hb
    rcases acquisition_cases hb with ⟨rfl, -⟩ | ⟨-, hb⟩
    · exact hw.numbered v a ha
    · exact hw.numbered v b hb
  case entry =>
    intro p c v hentry
    obtain ⟨b, hb, hcanister, hprincipal, hfree⟩ := hw.entry p c v hentry
    obtain ⟨d, hd, hdc, hdp, hdr⟩ := hmoves hb
    exact ⟨d, hd, hdc.trans hcanister, hdp.trans hprincipal, hdr.trans hfree⟩
  case released =>
    intro v b hb hset
    rcases acquisition_cases hb with ⟨-, rfl⟩ | ⟨-, hb⟩
    · exact nomatch hreleased.symm.trans hset
    · exact hw.released v b hb hset
  case along =>
    intro v b hb
    rcases acquisition_cases hb with ⟨-, rfl⟩ | ⟨-, hb⟩
    · exact halong
    · exact hw.along v b hb
  case given =>
    intro c hc
    obtain ⟨b, hb, hcanister, hprincipal⟩ := hw.given c hc
    obtain ⟨d, hd, hdc, hdp, -⟩ := hmoves hb
    exact ⟨d, hd, hdc.trans hcanister, hdp.trans hprincipal⟩

theorem Tracked.waits (hw : Tracked w) {t : Nat} {a : Acquisition Actor} {act : KeyAction Actor}
    (ha : w.acquisitions t = some a) (hawaits : a.flight.Awaits act) : a.released = false := by
  cases hreleased : a.released with
  | false => rfl
  | true =>
    obtain ⟨r, hr⟩ := hw.released t a ha hreleased
    obtain ⟨k, reply, hk⟩ := hawaits
    exact nomatch hr.symm.trans hk

/-- One acquisition of this principal at a time: its entry is the principal's. -/
def Single (principal : PrincipalBytes) (w : KeyTab Actor) : Prop :=
  ∀ t a, w.acquisitions t = some a → a.principal = principal → a.released = false →
    w.inFlight principal = some (a.canister, t)

theorem Single.put {principal : PrincipalBytes} (h : Single principal w) {t : Nat}
    {a b : Acquisition Actor} (ha : w.acquisitions t = some a) (hcanister : b.canister = a.canister)
    (hprincipal : b.principal = a.principal) (hreleased : b.released = a.released) :
    Single principal (w.put t b) := by
  intro v c hc hp hfree
  rcases acquisition_cases hc with ⟨rfl, rfl⟩ | ⟨-, hc⟩
  · rw [hcanister]
    exact h v a ha (hprincipal.symm.trans hp) (hreleased.symm.trans hfree)
  · exact h v c hc hp hfree

/-- A browser that saved a device keeps one. -/
theorem serves_store {s s' : Records} {act : KeyAction Actor} {x : Reply act}
    (h : Serves identity s act x s') (hs : s.store ≠ none) : s'.store ≠ none := by
  cases act with
  | loadDevice => exact h.1 ▸ hs
  | getWrappedSecret canister deviceId => exact h.1 ▸ hs
  | registerDevice canister device envelope =>
    rcases h with rfl | ⟨rfl, -⟩
    · exact hs
    · exact hs
  | saveDevice device =>
    rcases h with rfl | ⟨rfl, -⟩
    · exact nofun
    · exact hs
  | requestPasscode => exact (show s' = s from h) ▸ hs
  | openVetKeyEnvelope => exact (show s' = s from h) ▸ hs
  | getVetkeyVerificationKey => exact (show s' = s from h) ▸ hs
  | getEncryptedVetkey => exact (show s' = s from h) ▸ hs
  | createDevice => exact (show s' = s from h) ▸ hs
  | wrapVetKeyForDevice => exact (show s' = s from h) ▸ hs

variable [DecidableEq Actor]

/-- No acquisition is lost. -/
theorem step_moves (hw : Tracked w) (h : KeyStep K identity w e w') {t : Nat} {a : Acquisition Actor}
    (ha : w.acquisitions t = some a) : ∃ b, w'.acquisitions t = some b ∧ Moves a b := by
  cases h with
  | call canister principal =>
    unfold KeyTab.fetchKeys
    cases hentry : w.inFlight principal with
    | none => exact ⟨a, start_moves hw canister principal ha, .refl a⟩
    | some entry =>
      by_cases hsame : entry.1 = canister
      · exact ⟨a, (congrArg (fun v => KeyTab.acquisitions v t) (if_pos hsame)).trans ha, .refl a⟩
      · refine ⟨a, (congrArg (fun v => KeyTab.acquisitions v t) (if_neg hsame)).trans ?_, .refl a⟩
        exact start_moves hw canister principal ha
  | @answer v c act k x _ hc hk _ =>
    refine put_moves (b := {c with flight := c.flight.answer act k x}) hc ?_ ha
    exact moves_of_waiting hk rfl rfl
  | @deliver v c act k x hc hk =>
    refine put_moves (b := {c with flight := c.flight.deliver act k x}) hc ?_ ha
    exact moves_of_waiting hk rfl rfl
  | @release v c _ hc _ _ =>
    exact put_moves (b := {c with released := true}) hc ⟨rfl, rfl, fun _ => id⟩ ha
  | canister status => exact ⟨a, ha, .refl a⟩

theorem step_callers (h : KeyStep K identity w e w') : ∀ c ∈ w.callers, c ∈ w'.callers := by
  cases h with
  | call canister principal =>
    unfold KeyTab.fetchKeys
    cases w.inFlight principal with
    | none => exact fun c hc => List.mem_cons_of_mem _ hc
    | some entry =>
      dsimp only
      split
      · exact fun c hc => List.mem_cons_of_mem _ hc
      · exact fun c hc => List.mem_cons_of_mem _ hc
  | answer _ _ _ => exact fun c hc => hc
  | deliver _ _ => exact fun c hc => hc
  | release _ _ _ => exact fun c hc => hc
  | canister _ => exact fun c hc => hc

theorem Tracked.release (hw : Tracked w) {t : Nat} {a : Acquisition Actor}
    {r : Except AcquireError FetchedKeys} (ha : w.acquisitions t = some a)
    (hr : a.flight.progress = .settled r) : Tracked (w.release t a) := by
  have hmoves : ∀ {v c}, w.acquisitions v = some c →
      ∃ d, (w.release t a).acquisitions v = some d ∧ Moves c d :=
    fun hc => put_moves (b := {a with released := true}) ha ⟨rfl, rfl, fun _ => id⟩ hc
  constructor
  case numbered =>
    intro v b hb
    rcases acquisition_cases hb with ⟨rfl, -⟩ | ⟨-, hb⟩
    · exact hw.numbered v a ha
    · exact hw.numbered v b hb
  case entry =>
    intro p c v hentry
    obtain ⟨hold, hv⟩ : w.inFlight p = some (c, v) ∧ v ≠ t := by
      change (if w.inFlight a.principal = some (a.canister, t) then
        Function.update w.inFlight a.principal none else w.inFlight) p = some (c, v) at hentry
      by_cases hown : w.inFlight a.principal = some (a.canister, t)
      · rw [if_pos hown] at hentry
        by_cases hp : p = a.principal
        · rw [hp, Function.update_self] at hentry
          exact nomatch hentry
        · rw [Function.update_of_ne hp] at hentry
          refine ⟨hentry, ?_⟩
          rintro rfl
          obtain ⟨b, hb, -, hprincipal, -⟩ := hw.entry p c v hentry
          obtain rfl := Option.some.inj (ha.symm.trans hb)
          exact hp hprincipal.symm
      · rw [if_neg hown] at hentry
        refine ⟨hentry, ?_⟩
        rintro rfl
        obtain ⟨b, hb, rfl, rfl, -⟩ := hw.entry p c v hentry
        obtain rfl := Option.some.inj (ha.symm.trans hb)
        exact hown hentry
    obtain ⟨b, hb, hrest⟩ := hw.entry p c v hold
    exact ⟨b, (Function.update_of_ne hv ..).trans hb, hrest⟩
  case released =>
    intro v b hb hset
    rcases acquisition_cases hb with ⟨-, rfl⟩ | ⟨-, hb⟩
    · exact ⟨r, hr⟩
    · exact hw.released v b hb hset
  case along =>
    intro v b hb
    rcases acquisition_cases hb with ⟨-, rfl⟩ | ⟨-, hb⟩
    · exact hw.along t a ha
    · exact hw.along v b hb
  case given =>
    intro c hc
    obtain ⟨b, hb, hcanister, hprincipal⟩ := hw.given c hc
    obtain ⟨d, hd, hm⟩ := hmoves hb
    exact ⟨d, hd, hm.canister.trans hcanister, hm.principal.trans hprincipal⟩

/-- The acquisition a call is given. -/
theorem fetchKeys_cases (K : KeyEnv) (w : KeyTab Actor) (canister : Actor)
    (principal : PrincipalBytes) :
    (∃ t, w.inFlight principal = some (canister, t) ∧
        w.fetchKeys K canister principal = w.join canister principal t) ∨
      (∀ t, w.inFlight principal ≠ some (canister, t)) ∧
        w.fetchKeys K canister principal = w.start K canister principal := by
  unfold KeyTab.fetchKeys
  cases hentry : w.inFlight principal with
  | none => exact .inr ⟨nofun, rfl⟩
  | some entry =>
    obtain ⟨running, t⟩ := entry
    by_cases hsame : running = canister
    · subst hsame
      exact .inl ⟨t, rfl, if_pos rfl⟩
    · refine .inr ⟨fun v hv => hsame ?_, if_neg hsame⟩
      exact (Prod.mk.inj (Option.some.inj hv)).1

theorem Tracked.step (hw : Tracked w) (h : KeyStep K identity w e w') : Tracked w' := by
  cases h with
  | call canister principal =>
    rcases fetchKeys_cases K w canister principal with ⟨t, hentry, heq⟩ | ⟨-, heq⟩
    · exact heq ▸ hw.join hentry
    · exact heq ▸ hw.start canister principal
  | @answer t a act k x _ ha hk _ =>
    have halong := Flight.along_answer (x := x) (hw.along t a ha) hk
    have hput := hw.put ha (hw.waits ha ⟨k, none, hk⟩) halong
    exact ⟨hput.numbered, hput.entry, hput.released, hput.along, hput.given⟩
  | @deliver t a act k x ha hk =>
    exact hw.put ha (hw.waits ha ⟨k, _, hk⟩) (Flight.along_deliver (hw.along t a ha) hk)
  | release ha hr _ => exact hw.release ha hr
  | canister status => exact ⟨hw.numbered, hw.entry, hw.released, hw.along, hw.given⟩

theorem tracked_of_run {ok : KeyTab Actor → KeyEvent Actor → Prop}
    (h : (keyTab K identity).RunIf ok w) : Tracked w := by
  refine System.RunIf.invariant (I := Tracked) ?_ (fun _ _ _ _ hw _ hstep => hw.step hstep) h
  rintro w ⟨hnone, hempty, hcallers⟩
  refine ⟨fun t a ha => ?_, fun p c t hp => ?_, fun t a ha => ?_, fun t a ha => ?_, fun c hc => ?_⟩
  · exact nomatch (congrFun hnone t).symm.trans ha
  · exact nomatch (congrFun hempty p).symm.trans hp
  · exact nomatch (congrFun hnone t).symm.trans ha
  · exact nomatch (congrFun hnone t).symm.trans ha
  · rw [hcallers] at hc
    exact nomatch hc

theorem Single.step {principal : PrincipalBytes} (h : Single principal w)
    (hok : SameCanister principal w e) (hstep : KeyStep K identity w e w') : Single principal w' := by
  cases hstep with
  | call canister p =>
    rcases fetchKeys_cases K w canister p with ⟨t, hentry, heq⟩ | ⟨hnone, heq⟩
    · rw [heq]
      exact h
    · rw [heq]
      intro t a ha hp hreleased
      rcases acquisition_cases ha with ⟨rfl, rfl⟩ | ⟨-, ha⟩
      · obtain rfl := hp
        exact Function.update_self ..
      · have hown := h t a ha hp hreleased
        have hne : principal ≠ p := by
          rintro rfl
          obtain rfl := hok rfl a.canister t hown
          exact hnone t hown
        exact (Function.update_of_ne hne ..).trans hown
  | answer ha _ _ => exact h.put ha rfl rfl rfl
  | deliver ha _ => exact h.put ha rfl rfl rfl
  | @release t a _ ha _ hreleased =>
    intro v c hc hp hfree
    rcases acquisition_cases hc with ⟨-, rfl⟩ | ⟨hv, hc⟩
    · exact nomatch hfree
    · have hown := h v c hc hp hfree
      show (if _ then _ else _ : PrincipalBytes → Option (Actor × Nat)) principal = _
      split
      · rename_i hmine
        have hne : principal ≠ a.principal := by
          rintro rfl
          exact hv (Prod.mk.inj (Option.some.inj (hown.symm.trans hmine))).2
        rw [Function.update_of_ne hne, hown]
      · exact hown
  | canister status => exact h

theorem single_of_run {principal : PrincipalBytes}
    (h : (keyTab K identity).RunIf (SameCanister principal) w) : Single principal w := by
  refine System.RunIf.invariant (I := Single principal) ?_
    (fun _ _ _ _ hw hok hstep => hw.step hok hstep) h
  rintro w ⟨hnone, -, -⟩ t a ha
  exact nomatch (congrFun hnone t).symm.trans ha

/-! ### From a call on -/

/-- What a call left is still there. -/
theorem later_moves {u : KeyTab Actor} (hu : Tracked u)
    (h : ((keyTab K identity).startedIn u).Reachable w) {t : Nat} {a : Acquisition Actor}
    (ha : u.acquisitions t = some a) :
    Tracked w ∧ ∃ b, w.acquisitions t = some b ∧ Moves a b := by
  refine System.RunIf.invariant
    (I := fun w => Tracked w ∧ ∃ b, w.acquisitions t = some b ∧ Moves a b) ?_ ?_ h
  · rintro _ rfl
    exact ⟨hu, a, ha, .refl a⟩
  · intro w _ w' _ hI _ hstep
    obtain ⟨hw, b, hb, hab⟩ := hI
    obtain ⟨c, hc, hbc⟩ := step_moves hw hstep hb
    exact ⟨hw.step hstep, c, hc, hab.trans hbc⟩

/-- The promise a call is given is of an acquisition in flight, on its actor. -/
theorem call_given (hw : Tracked w) (canister : Actor) (principal : PrincipalBytes) :
    ∃ t a, (w.fetchKeys K canister principal).callers = ⟨canister, principal, t⟩ :: w.callers ∧
      (w.fetchKeys K canister principal).acquisitions t = some a ∧ a.canister = canister ∧
      a.principal = principal ∧ a.released = false := by
  rcases fetchKeys_cases K w canister principal with ⟨t, hentry, heq⟩ | ⟨-, heq⟩
  · obtain ⟨a, ha, hrest⟩ := hw.entry _ _ _ hentry
    rw [heq]
    exact ⟨t, a, rfl, ha, hrest⟩
  · rw [heq]
    exact ⟨w.next, _, rfl, Function.update_self .., rfl, rfl, rfl⟩

/-- What is answered is answered by the records as they stand. -/
theorem step_answers (hw : Tracked w) (h : KeyStep K identity w e w') {t : Nat}
    {a b : Acquisition Actor} (ha : w.acquisitions t = some a) (hb : w'.acquisitions t = some b) :
    ∀ x ∈ b.flight.answers,
      x ∈ a.flight.answers ∨ ∃ records, Serves identity w.records x.1 x.2 records := by
  have hold : w.acquisitions t = some b → ∀ x ∈ b.flight.answers,
      x ∈ a.flight.answers ∨ ∃ records, Serves identity w.records x.1 x.2 records := by
    intro hb x hx
    obtain rfl := Option.some.inj (ha.symm.trans hb)
    exact .inl hx
  cases h with
  | call canister principal =>
    rcases fetchKeys_cases K w canister principal with ⟨u, -, heq⟩ | ⟨-, heq⟩
    · rw [heq] at hb
      exact hold hb
    · rw [heq] at hb
      rcases acquisition_cases hb with ⟨rfl, -⟩ | ⟨-, hb⟩
      · exact absurd (hw.numbered _ a ha) (Nat.lt_irrefl _)
      · exact hold hb
  | @answer v c act k x records hc hk hx =>
    rcases acquisition_cases hb with ⟨rfl, rfl⟩ | ⟨-, hb⟩
    · obtain rfl := Option.some.inj (ha.symm.trans hc)
      intro y hy
      rcases List.mem_cons.1 hy with rfl | hy
      · exact .inr ⟨records, hx⟩
      · exact .inl (a.flight.seen_subset y hy)
    · exact hold hb
  | @deliver v c act k x hc hk =>
    rcases acquisition_cases hb with ⟨rfl, rfl⟩ | ⟨-, hb⟩
    · obtain rfl := Option.some.inj (ha.symm.trans hc)
      intro y hy
      exact .inl (Flight.answers_deliver hk ▸ hy)
    · exact hold hb
  | @release v c r hc hr hreleased =>
    rcases acquisition_cases hb with ⟨rfl, rfl⟩ | ⟨-, hb⟩
    · obtain rfl := Option.some.inj (ha.symm.trans hc)
      exact fun x hx => .inl hx
    · exact hold hb
  | canister status => exact hold hb

/-- Since the tab stood at `u`, the records answered this. -/
def ServedSince (K : KeyEnv) (identity : Actor → PrincipalBytes) (u w : KeyTab Actor)
    (x : Σ act : KeyAction Actor, Reply act) : Prop :=
  ∃ v records, ((keyTab K identity).startedIn u).Reachable v ∧
    ((keyTab K identity).startedIn v).Reachable w ∧ Serves identity v.records x.1 x.2 records

/-- An acquisition that was answered nothing yet is answered from then on. -/
theorem served_since {u : KeyTab Actor} (hu : Tracked u)
    (h : ((keyTab K identity).startedIn u).Reachable w) {t : Nat} {a b : Acquisition Actor}
    (ha : u.acquisitions t = some a) (hnone : a.flight.answers = []) (hb : w.acquisitions t = some b) :
    ∀ x ∈ b.flight.answers, ServedSince K identity u w x := by
  suffices hI : ∃ c, w.acquisitions t = some c ∧ ∀ x ∈ c.flight.answers, ServedSince K identity u w x by
    obtain ⟨c, hc, hserved⟩ := hI
    obtain rfl := Option.some.inj (hc.symm.trans hb)
    exact hserved
  refine System.RunIf.invariant (I := fun w => ∃ c, w.acquisitions t = some c ∧
    ∀ x ∈ c.flight.answers, ServedSince K identity u w x) ?_ ?_ h
  · rintro _ rfl
    exact ⟨a, ha, by rw [hnone]; exact fun _ => nofun⟩
  · rintro v e v' run ⟨c, hc, hserved⟩ - hstep
    have hv : Tracked v := (later_moves hu run ha).1
    obtain ⟨d, hd, -⟩ := step_moves hv hstep hc
    refine ⟨d, hd, fun x hx => ?_⟩
    rcases step_answers hv hstep hc hd x hx with hx | ⟨records, hx⟩
    · obtain ⟨s, records, hs, hlater, hserves⟩ := hserved x hx
      exact ⟨s, records, hs, .step hlater trivial hstep, hserves⟩
    · exact ⟨v, records, run, .step (.start rfl) trivial hstep, hx⟩

theorem fetchKeys_records (K : KeyEnv) (w : KeyTab Actor) (canister : Actor)
    (principal : PrincipalBytes) : (w.fetchKeys K canister principal).records = w.records := by
  rcases fetchKeys_cases K w canister principal with ⟨t, -, heq⟩ | ⟨-, heq⟩
  · rw [heq]
    rfl
  · rw [heq]
    rfl

theorem store_kept {u : KeyTab Actor} (hu : u.records.store ≠ none)
    (h : ((keyTab K identity).startedIn u).Reachable w) : w.records.store ≠ none := by
  refine System.RunIf.invariant (I := fun w => w.records.store ≠ none) ?_ ?_ h
  · rintro _ rfl
    exact hu
  · intro v e v' _ hv _ hstep
    cases hstep with
    | call canister principal =>
      rw [fetchKeys_records]
      exact hv
    | answer _ _ hx => exact serves_store hx hv
    | deliver _ _ => exact hv
    | release _ _ _ => exact hv
    | canister status => exact hv

/-- A derive of an acquisition that began with a device saved: since then the browser had a device
that the canister, at some time, did not know or had revoked. -/
theorem derives_after {u : KeyTab Actor} (hu : Tracked u) (hstore : u.records.store ≠ none)
    (h : ((keyTab K identity).startedIn u).Reachable w) {t : Nat} {a b : Acquisition Actor} {c : Actor}
    (ha : u.acquisitions t = some a) (hnone : a.flight.answers = []) (hb : w.acquisitions t = some b)
    (hderives : b.flight.Awaits (.getEncryptedVetkey c)) :
    ∃ device v v', ((keyTab K identity).startedIn u).Reachable v ∧ v.records.store = some device ∧
      ((keyTab K identity).startedIn u).Reachable v' ∧
      (v'.records.status (identity a.canister) device.deviceId = .unknown ∨
        v'.records.status (identity a.canister) device.deviceId = .revoked) := by
  obtain ⟨hw, b', hb', hmoves⟩ := later_moves hu h ha
  obtain rfl := Option.some.inj (hb'.symm.trans hb)
  have hserved : ∀ x ∈ b'.flight.seen, ServedSince K identity u w x :=
    fun x hx => served_since hu h ha hnone hb x (b'.flight.seen_subset x hx)
  rcases (hw.along t b' hb).awaits hderives c rfl with hload | ⟨device, hload, hanswer⟩
  · obtain ⟨v, records, hv, -, -, hfound⟩ := hserved _ hload
    exact absurd (hfound none rfl).symm (store_kept hstore hv)
  · obtain ⟨v, records, hv, -, -, hfound⟩ := hserved _ hload
    rw [hmoves.canister] at hanswer
    rcases hanswer with hanswer | hanswer
    · obtain ⟨v', _, hv', -, -, hunknown, -, -⟩ := hserved _ hanswer
      exact ⟨device, v, v', hv, (hfound _ rfl).symm, hv', .inl (hunknown rfl)⟩
    · obtain ⟨v', _, hv', -, -, -, hrevoked, -⟩ := hserved _ hanswer
      exact ⟨device, v, v', hv, (hfound _ rfl).symm, hv', .inr (hrevoked rfl)⟩

theorem callers_kept {u : KeyTab Actor} (h : ((keyTab K identity).startedIn u).Reachable w) :
    ∀ c ∈ u.callers, c ∈ w.callers := by
  refine System.RunIf.invariant (I := fun w => ∀ c ∈ u.callers, c ∈ w.callers) ?_ ?_ h
  · rintro _ rfl c hc
    exact hc
  · exact fun _ _ _ _ hI _ hstep c hc => step_callers hstep c (hI c hc)

/-- An acquisition of this principal awaits a derive. -/
def Deriving (w : KeyTab Actor) (principal : PrincipalBytes) (t : Nat) : Prop :=
  ∃ a c, w.acquisitions t = some a ∧ a.principal = principal ∧ a.flight.Awaits (.getEncryptedVetkey c)

/-- A principal has one derive in flight at a time as long as its calls come with the actor of the
acquisition in flight. A call is given the promise of an acquisition in flight, which stays its
own; a derive has a reason; and an acquisition that begins with a device saved derives only for a
device that the canister does not know, or revoked. -/
theorem key_acquisition_single_flight (hw : (keyTab K identity).Reachable w) :
    (∀ principal, (keyTab K identity).RunIf (SameCanister principal) w →
      ∀ t u, Deriving w principal t → Deriving w principal u → t = u) ∧
    (∀ canister principal, ∃ t a,
      (w.fetchKeys K canister principal).callers = ⟨canister, principal, t⟩ :: w.callers ∧
      (w.fetchKeys K canister principal).acquisitions t = some a ∧ a.canister = canister ∧
      a.principal = principal ∧ a.released = false ∧
      ∀ w', ((keyTab K identity).startedIn (w.fetchKeys K canister principal)).Reachable w' →
        ⟨canister, principal, t⟩ ∈ w'.callers ∧ ∃ b, w'.acquisitions t = some b ∧ Moves a b) ∧
    (∀ t a c, w.acquisitions t = some a → a.flight.Awaits (.getEncryptedVetkey c) →
      Justified a.canister a.flight.seen) ∧
    ∀ canister principal, w.records.store ≠ none →
      (∀ t, w.inFlight principal ≠ some (canister, t)) →
      ∀ w', ((keyTab K identity).startedIn (w.fetchKeys K canister principal)).Reachable w' →
      ∀ a c, w'.acquisitions w.next = some a → a.flight.Awaits (.getEncryptedVetkey c) →
      ∃ device v v',
        ((keyTab K identity).startedIn (w.fetchKeys K canister principal)).Reachable v ∧
        v.records.store = some device ∧
        ((keyTab K identity).startedIn (w.fetchKeys K canister principal)).Reachable v' ∧
        (v'.records.status (identity canister) device.deviceId = .unknown ∨
          v'.records.status (identity canister) device.deviceId = .revoked) := by
  have htracked := tracked_of_run hw
  have hcalled : ∀ canister principal, Tracked (w.fetchKeys K canister principal) :=
    fun canister principal => htracked.step (.call w canister principal : KeyStep K identity w _ _)
  refine ⟨?_, ?_, ?_, ?_⟩
  · rintro principal hrun t u ⟨a, c, ha, hpa, hca⟩ ⟨b, d, hb, hpb, hdb⟩
    have hsingle := single_of_run hrun
    have hta := hsingle t a ha hpa (htracked.waits ha hca)
    have hub := hsingle u b hb hpb (htracked.waits hb hdb)
    exact (Prod.mk.inj (Option.some.inj (hta.symm.trans hub))).2
  · intro canister principal
    obtain ⟨t, a, hcallers, ha, hcanister, hprincipal, hreleased⟩ :=
      call_given (K := K) htracked canister principal
    refine ⟨t, a, hcallers, ha, hcanister, hprincipal, hreleased, fun w' hw' => ⟨?_, ?_⟩⟩
    · exact callers_kept hw' _ (hcallers ▸ List.mem_cons_self)
    · exact (later_moves (hcalled canister principal) hw' ha).2
  · intro t a c ha hderives
    exact (htracked.along t a ha).awaits hderives c rfl
  · intro canister principal hstore hfree w' hw' a c ha hderives
    rcases fetchKeys_cases K w canister principal with ⟨t, hentry, -⟩ | ⟨-, heq⟩
    · exact absurd hentry (hfree t)
    · have hstarted : (w.fetchKeys K canister principal).acquisitions w.next =
          some ⟨canister, principal, .start (sessionFetchKeys K canister principal), false⟩ := by
        rw [heq]
        exact Function.update_self ..
      have hnone := Flight.answers_start (sessionFetchKeys K canister principal)
      refine derives_after (hcalled canister principal) ?_ hw' hstarted hnone ha hderives
      rw [fetchKeys_records]
      exact hstore

/-! ### Two actors -/

/-- Runs that answer what is awaited. -/
structure Answering (ok : KeyTab Actor → KeyEvent Actor → Prop) : Prop where
  answer : ∀ w t, ok w (.answer t)
  deliver : ∀ w t, ok w (.deliver t)

section Answered
variable {ok : KeyTab Actor → KeyEvent Actor → Prop}

/-- One answer, given and delivered. -/
theorem exchanged (hok : Answering ok) (hrun : (keyTab K identity).RunIf ok w) {t : Nat}
    {a : Acquisition Actor} {act : KeyAction Actor} {k : Reply act → Program Actor FetchedKeys} (ha : w.acquisitions t = some a)
    (hk : a.flight.progress = .waiting act k none) {x : Reply act}
    (hx : Serves identity w.records act x w.records) :
    ∃ v, (keyTab K identity).RunIf ok v ∧
      v.acquisitions t = some {a with flight := a.flight.deliver act k x} ∧ v.records = w.records ∧
      ∀ u, u ≠ t → v.acquisitions u = w.acquisitions u := by
  have hanswered := System.RunIf.step hrun (hok.answer w t) (.answer ha hk hx)
  have hdelivered := System.RunIf.step hanswered (hok.deliver _ t)
    (.deliver (x := x) (a := {a with flight := a.flight.answer act k x}) (Function.update_self ..) rfl)
  refine ⟨_, hdelivered, Function.update_self .., rfl, fun u hu => ?_⟩
  exact (Function.update_of_ne hu ..).trans (Function.update_of_ne hu ..)

/-- With no device saved an acquisition comes to its derive. -/
theorem derive_reached (hok : Answering ok) (hrun : (keyTab K identity).RunIf ok w) {t : Nat}
    {canister : Actor} {principal : PrincipalBytes}
    (ha : w.acquisitions t =
      some ⟨canister, principal, .start (sessionFetchKeys K canister principal), false⟩)
    (hstore : w.records.store = none) {bytes key : Bytes} (hkey : K.deserialize bytes = some key) :
    ∃ v, (keyTab K identity).RunIf ok v ∧ Deriving v principal t ∧ v.records = w.records ∧
      ∀ u, u ≠ t → v.acquisitions u = w.acquisitions u := by
  obtain ⟨v₁, hv₁, ha₁, hrecords₁, hothers₁⟩ := exchanged hok hrun (x := .ok none) ha rfl
    ⟨rfl, fun found hfound => by rw [hstore, ← Except.ok.inj hfound]⟩
  obtain ⟨v₂, hv₂, ha₂, hrecords₂, hothers₂⟩ := exchanged hok hv₁ (x := .ok bytes) ha₁ rfl rfl
  refine ⟨v₂, hv₂, ⟨_, canister, ha₂, rfl, ?_⟩, hrecords₂.trans hrecords₁, fun u hu =>
    (hothers₂ u hu).trans (hothers₁ u hu)⟩
  show ∃ k reply, Progress.of (Async.bind (Async.bind (orElse .failed (K.deserialize bytes)) _) _) =
    .waiting _ k reply
  rw [hkey]
  exact ⟨_, _, rfl⟩

end Answered

def sampleKeys : KeyEnv := ⟨some, fun derived _ _ => some derived.encryptedKey⟩

def samplePrincipal : PrincipalBytes := .single 1

def sampleIdentity : Bool → PrincipalBytes := fun _ => samplePrincipal

def sampleTab : KeyTab Bool := ⟨⟨none, fun _ _ => .unknown⟩, fun _ => none, 0, fun _ => none, []⟩

theorem samplePoint : sampleKeys.deserialize [] = some [] := rfl

/-- A lone derive. -/
theorem key_acquisition_single_flight_lone : ∃ v : KeyTab Bool, Deriving v samplePrincipal 0 ∧
    ∀ t, Deriving v samplePrincipal t → t = 0 := by
  have hfirst : SameCanister samplePrincipal sampleTab (.call false samplePrincipal) :=
    fun _ _ _ h => nomatch h
  have hrun : (keyTab sampleKeys sampleIdentity).RunIf (SameCanister samplePrincipal)
      (sampleTab.fetchKeys sampleKeys false samplePrincipal) :=
    .step (.start ⟨rfl, rfl, rfl⟩) hfirst (.call ..)
  obtain ⟨v, hv, hderiving, -, -⟩ := derive_reached ⟨fun _ _ => trivial, fun _ _ => trivial⟩ hrun
    (t := 0) rfl rfl samplePoint
  have hreachable : (keyTab sampleKeys sampleIdentity).Reachable v := hv.mono fun _ _ _ => trivial
  exact ⟨v, hderiving, fun t ht =>
    (key_acquisition_single_flight hreachable).1 samplePrincipal hv t 0 ht hderiving⟩

/-- A call that comes with another actor derives beside the one in flight. -/
theorem other_actor_derives : ¬ ∀ v, (keyTab sampleKeys sampleIdentity).Reachable v →
    ∀ principal t u, Deriving v principal t → Deriving v principal u → t = u := by
  intro h
  have hrun : (keyTab sampleKeys sampleIdentity).Reachable
      ((sampleTab.fetchKeys sampleKeys false samplePrincipal).fetchKeys sampleKeys true
        samplePrincipal) :=
    .step (.step (.start ⟨rfl, rfl, rfl⟩) trivial (.call _ _ _)) trivial (.call _ _ _)
  have hok : Answering fun (_ : KeyTab Bool) _ => True := ⟨fun _ _ => trivial, fun _ _ => trivial⟩
  obtain ⟨v, hv, hfirst, hrecords, hothers⟩ :=
    derive_reached hok hrun (t := 0) rfl rfl samplePoint
  have hstarted := hothers 1 (by decide)
  obtain ⟨v', hv', hsecond, -, hothers'⟩ := derive_reached hok hv (t := 1) (hstarted.trans rfl)
    (congrArg Records.store hrecords) samplePoint
  obtain ⟨a, c, ha, hrest⟩ := hfirst
  have hkept : Deriving v' samplePrincipal 0 := ⟨a, c, (hothers' 0 (by decide)).trans ha, hrest⟩
  exact absurd (h v' hv' samplePrincipal 0 1 hkept hsecond) (by decide)

end Kept

end StshProtocol.Wallet.KeyAccess
