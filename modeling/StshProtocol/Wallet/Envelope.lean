import StshProtocol.Foundation.Cursor
import StshProtocol.Foundation.Sha256
import StshProtocol.Foundation.Utf8
import StshProtocol.Wallet.Devices

/-! The envelope of a device.

The parser goes over untrusted bytes with a cursor; what it accepts is told by what would be written
(`decodeEnvelope_iff`). An envelope is opened only for the header the asking wallet writes itself,
so that its mode, its parameters and its salt are the ones that were sealed (`envelope_codec`). -/
namespace StshProtocol.Wallet.Envelope
open Foundation ShieldedPool
open Vetkeys Cursor
open Vesting (PrincipalBytes)

/-! ### The format -/

def envelopeProtocol : JsString := literal "stsh.vetkeys.device-envelope"

def envelopeVersion : Nat := 1

inductive EnvelopeMode where
  | iiOnly
  | passcode
  deriving DecidableEq

def EnvelopeMode.byte : EnvelopeMode → UInt8
  | .iiOnly => 0
  | .passcode => 1

def envelopeGcmNonceBytes : Nat := 12

def kdfVersionArgon2id : Nat := 2

def argon2idMemoryKib : Nat := 65536

def argon2idIterations : Nat := 3

def argon2idParallelism : Nat := 4

def argon2idKeyBytes : Nat := 32

def argon2idSaltBytes : Nat := 16

/-- A device id; the bytes of one are never as many as four bytes cannot count. -/
abbrev DeviceId : Type := {id : JsString // FieldFits (encodeText id)}

structure EnvelopeBinding where
  canisterId : PrincipalBytes
  owner : PrincipalBytes
  deviceId : DeviceId
  encSpki : Bytes
  deriving DecidableEq

structure EnvelopeHeader extends EnvelopeBinding where
  mode : EnvelopeMode
  version : Nat
  kdfId : Nat
  memoryKib : Nat
  iterations : Nat
  parallelism : Nat
  salt : Bytes
  deriving DecidableEq

/-- A header as it was read: of the device's key there is only the hash. -/
structure ParsedHeader where
  canisterId : Bytes
  owner : Bytes
  deviceId : JsString
  encSpkiHash : Bytes
  mode : EnvelopeMode
  version : Nat
  kdfId : Nat
  memoryKib : Nat
  iterations : Nat
  parallelism : Nat
  salt : Bytes
  deriving DecidableEq

structure DecodedEnvelope where
  header : ParsedHeader
  headerBytes : Bytes
  body : Bytes
  deriving DecidableEq

inductive EnvelopeFormatError where
  | truncatedLengthPrefix
  | lengthPrefixOverruns
  | truncatedByte
  | truncatedU32
  | unknownProtocol (protocol : JsString)
  | truncatedVersion
  | unknownVersion (version : Nat)
  | unknownMode (mode : UInt8)
  | truncatedKeyHash
  | noBody
  | unknownKdf (kdfId : Nat)
  | weakenedKdf (memoryKib iterations parallelism : Nat)
  | passcodeSalt
  | bodyTooShort
  | kdfInIiOnly
  | otherBinding
  | noPasscodeApplies
  | passcodeRequired
  | notOpenable
  deriving DecidableEq

/-! ### Reading -/

/-- `TextDecoder`: faults become replacement characters, a byte order mark is left out. -/
def decodeText (bytes : Bytes) : JsString := Utf16.ofText ((Utf8.decode bytes).map Char.ofNat)

def readVar (bytes : Bytes) (pos : Nat) : Except EnvelopeFormatError (Bytes × Nat) :=
  if bytes.length < pos + 4 then .error .truncatedLengthPrefix
  else
    let len := Bytes.ofLe (bytes.extract pos (pos + 4))
    let start := pos + 4
    if bytes.length < start + len then .error .lengthPrefixOverruns
    else .ok (bytes.extract start (start + len), start + len)

/-- So many bytes, as the number or the bytes they are. -/
def readFixed {α : Type} (width : Nat) (value : Bytes → α) (e : EnvelopeFormatError) (bytes : Bytes)
    (pos : Nat) : Except EnvelopeFormatError (α × Nat) :=
  if bytes.length < pos + width then .error e
  else .ok (value (bytes.extract pos (pos + width)), pos + width)

def readByte : Bytes → Nat → Except EnvelopeFormatError (Nat × Nat) :=
  readFixed 1 Bytes.ofLe .truncatedByte

def readU32 : Bytes → Nat → Except EnvelopeFormatError (Nat × Nat) :=
  readFixed 4 Bytes.ofLe .truncatedU32

def readVersion : Bytes → Nat → Except EnvelopeFormatError (Nat × Nat) :=
  readFixed 2 Bytes.ofLe .truncatedVersion

def readKeyHash : Bytes → Nat → Except EnvelopeFormatError (Bytes × Nat) :=
  readFixed 32 id .truncatedKeyHash

def modeOfByte (byte : Nat) : Except EnvelopeFormatError EnvelopeMode :=
  if byte = 0 then .ok .iiOnly
  else if byte = 1 then .ok .passcode
  else .error (.unknownMode (UInt8.ofNat byte))

/-- The protocol, the version and the mode. -/
def readPreamble (envelope : Bytes) : Except EnvelopeFormatError (EnvelopeMode × Nat) := do
  let (protocol, pos) ← readVar envelope 0
  if decodeText protocol ≠ envelopeProtocol then .error (.unknownProtocol (decodeText protocol))
  else
    let (version, pos) ← readVersion envelope pos
    if version ≠ envelopeVersion then .error (.unknownVersion version)
    else
      let (modeByte, pos) ← readByte envelope pos
      let mode ← modeOfByte modeByte
      .ok (mode, pos)

/-- The fields behind the mode. -/
def readFields (envelope : Bytes) (mode : EnvelopeMode) (pos : Nat) :
    Except EnvelopeFormatError (ParsedHeader × Nat) := do
  let (canisterId, pos) ← readVar envelope pos
  let (owner, pos) ← readVar envelope pos
  let (deviceId, pos) ← readVar envelope pos
  let (encSpkiHash, pos) ← readKeyHash envelope pos
  let (kdfId, pos) ← readByte envelope pos
  let (memoryKib, pos) ← readU32 envelope pos
  let (iterations, pos) ← readU32 envelope pos
  let (parallelism, pos) ← readU32 envelope pos
  let (salt, pos) ← readVar envelope pos
  .ok (⟨canisterId, owner, decodeText deviceId, encSpkiHash, mode, envelopeVersion, kdfId, memoryKib,
    iterations, parallelism, salt⟩, pos)

/-- What the mode asks of the parameters, the salt and the body. -/
def checkMode (header : ParsedHeader) (body : Bytes) : Except EnvelopeFormatError Unit :=
  match header.mode with
  | .passcode =>
    if header.kdfId ≠ kdfVersionArgon2id then .error (.unknownKdf header.kdfId)
    else if header.memoryKib ≠ argon2idMemoryKib ∨ header.iterations ≠ argon2idIterations ∨
        header.parallelism ≠ argon2idParallelism then
      .error (.weakenedKdf header.memoryKib header.iterations header.parallelism)
    else if header.salt.length ≠ argon2idSaltBytes then .error .passcodeSalt
    else if body.length ≤ envelopeGcmNonceBytes then .error .bodyTooShort
    else .ok ()
  | .iiOnly =>
    if header.salt.length ≠ 0 ∨ header.kdfId ≠ 0 ∨ header.memoryKib ≠ 0 ∨ header.iterations ≠ 0 ∨
        header.parallelism ≠ 0 then .error .kdfInIiOnly
    else .ok ()

def decodeEnvelope (envelope : Bytes) : Except EnvelopeFormatError DecodedEnvelope := do
  let (mode, pos) ← readPreamble envelope
  let (header, pos) ← readFields envelope mode pos
  if (envelope.drop pos).length = 0 then .error .noBody
  else
    checkMode header (envelope.drop pos)
    .ok ⟨header, envelope.take pos, envelope.drop pos⟩

/-! ### Sealing -/

/-- The functions of the platform, with keys as they are imported. -/
structure EnvelopeCrypto (Key : Type) where
  sha256 : Bytes → Hash32
  argon2id (password : JsString) (salt : Bytes)
    (memorySize iterations parallelism hashLength : Nat) : Key
  encrypt (key : Key) (iv additionalData plaintext : Bytes) : Bytes
  decrypt (key : Key) (iv additionalData ciphertext : Bytes) : Option Bytes

section Sealing
variable {Key : Type} (C : EnvelopeCrypto Key)

def encodeHeader (header : EnvelopeHeader) : Bytes :=
  concatBytes [
    varField (encodeText envelopeProtocol),
    u16le header.version,
    [header.mode.byte],
    varField header.canisterId.asSlice,
    varField header.owner.asSlice,
    varField (encodeText header.deviceId.val),
    (C.sha256 header.encSpki).val,
    [UInt8.ofNat header.kdfId],
    u32le header.memoryKib,
    u32le header.iterations,
    u32le header.parallelism,
    varField header.salt]

def derivePasscodeKeyBytes (passcode : JsString) (salt : Bytes) : Key :=
  C.argon2id passcode salt argon2idMemoryKib argon2idIterations argon2idParallelism argon2idKeyBytes

def EnvelopeBinding.iiOnlyHeader (binding : EnvelopeBinding) : EnvelopeHeader where
  toEnvelopeBinding := binding
  mode := .iiOnly
  version := envelopeVersion
  kdfId := 0
  memoryKib := 0
  iterations := 0
  parallelism := 0
  salt := []

def EnvelopeBinding.passcodeHeader (binding : EnvelopeBinding) (salt : Bytes) : EnvelopeHeader where
  toEnvelopeBinding := binding
  mode := .passcode
  version := envelopeVersion
  kdfId := kdfVersionArgon2id
  memoryKib := argon2idMemoryKib
  iterations := argon2idIterations
  parallelism := argon2idParallelism
  salt := salt

/-- `buildEnvelope`, with the salt and the nonce it draws. -/
def buildEnvelope (binding : EnvelopeBinding) (deviceCiphertext : Bytes) (passcode : Option JsString)
    (salt nonce : Bytes) : Bytes :=
  match passcode with
  | none => concatBytes [encodeHeader C binding.iiOnlyHeader, deviceCiphertext]
  | some passcode =>
    let header := encodeHeader C (binding.passcodeHeader salt)
    let key := derivePasscodeKeyBytes C passcode salt
    concatBytes [header, nonce, C.encrypt key nonce header deviceCiphertext]

/-- The header an envelope that says this of itself has for this binding. -/
def expectedHeader (binding : EnvelopeBinding) (header : ParsedHeader) : EnvelopeHeader where
  toEnvelopeBinding := binding
  mode := header.mode
  version := header.version
  kdfId := header.kdfId
  memoryKib := header.memoryKib
  iterations := header.iterations
  parallelism := header.parallelism
  salt := header.salt

def openSealed (parsed : DecodedEnvelope) (passcode : JsString) : Except EnvelopeFormatError Bytes :=
  let key := derivePasscodeKeyBytes C passcode parsed.header.salt
  let nonce := parsed.body.take envelopeGcmNonceBytes
  let ciphertext := parsed.body.drop envelopeGcmNonceBytes
  match C.decrypt key nonce parsed.headerBytes ciphertext with
  | some plaintext => .ok plaintext
  | none => .error .notOpenable

def openBody (parsed : DecodedEnvelope) (passcode : Option JsString) :
    Except EnvelopeFormatError Bytes :=
  match parsed.header.mode, passcode with
  | .iiOnly, some _ => .error .noPasscodeApplies
  | .iiOnly, none => .ok parsed.body
  | .passcode, none => .error .passcodeRequired
  | .passcode, some passcode => openSealed C parsed passcode

def openEnvelope (envelope : Bytes) (binding : EnvelopeBinding) (passcode : Option JsString) :
    Except EnvelopeFormatError Bytes := do
  let parsed ← decodeEnvelope envelope
  if encodeHeader C (expectedHeader binding parsed.header) ≠ parsed.headerBytes then
    .error .otherBinding
  else openBody C parsed passcode

end Sealing

/-! ### What the readers accept -/

theorem varField_length (field : Bytes) : (varField field).length = 4 + field.length := by
  rw [varField_eq, length_pushVar]

theorem varField_ne (field : Bytes) : varField field ≠ [] :=
  List.ne_nil_of_length_pos (by rw [varField_length]; omega)

theorem reads_var : Cursor.Reads readVar varField FieldFits := by
  intro bytes pos a next
  rw [readVar]
  constructor
  · intro hok
    by_cases hshort : bytes.length < pos + 4
    · rw [if_pos hshort] at hok
      exact nomatch hok
    rw [if_neg hshort] at hok
    have hfront := spans_extract (Nat.le_add_right pos 4) (Nat.not_lt.1 hshort)
    have hfour := (Nat.add_left_cancel hfront.1).symm
    have hlt := Bytes.ofLe_lt (bytes.extract pos (pos + 4))
    have hback := Bytes.toLe_ofLe (bytes.extract pos (pos + 4))
    rw [hfour] at hlt hback
    generalize Bytes.ofLe (bytes.extract pos (pos + 4)) = len at hok hlt hback
    by_cases hover : bytes.length < pos + 4 + len
    · rw [if_pos hover] at hok
      exact nomatch hok
    rw [if_neg hover, Except.ok.injEq, Prod.mk.injEq] at hok
    obtain ⟨rfl, rfl⟩ := hok
    have hfield := spans_extract (Nat.le_add_right (pos + 4) len) (Nat.not_lt.1 hover)
    have hlength := (Nat.add_left_cancel hfield.1).symm
    refine ⟨by rw [FieldFits, hlength]; exact hlt, ?_⟩
    rw [varField_eq, pushVar, hlength, hback]
    exact hfront.append hfield
  · rintro ⟨hfits, hspans⟩
    have hle := hspans.le (varField_ne a)
    rw [varField_eq] at hspans
    obtain ⟨hfront, hfield⟩ := hspans.split
    rw [Bytes.length_toLe] at hfront hfield
    obtain rfl := hfield.1
    have hlength : a.length % 256 ^ 4 = a.length := Nat.mod_eq_of_lt hfits
    rw [if_neg (by omega), hfront.extract_eq, Bytes.ofLe_toLe, hlength, if_neg (by omega),
      hfield.extract_eq]

theorem reads_number {width : Nat} {e : EnvelopeFormatError} (hwidth : 0 < width) :
    Cursor.Reads (readFixed width Bytes.ofLe e) (Bytes.toLe width) fun n => n < 256 ^ width := by
  refine reads_fixed width hwidth Bytes.ofLe e (fun _ _ => rfl) (fun n hn => ?_) ?_
  · exact ⟨Bytes.length_toLe .., by rw [Bytes.ofLe_toLe, Nat.mod_eq_of_lt hn]⟩
  · rintro part rfl
    exact ⟨Bytes.ofLe_lt part, Bytes.toLe_ofLe part⟩

theorem reads_keyHash : Cursor.Reads readKeyHash id fun hash => hash.length = 32 :=
  reads_fixed 32 (by decide) id _ (fun _ _ => rfl) (fun _ h => ⟨h, rfl⟩) fun _ h => ⟨h, rfl⟩

theorem modeOfByte_iff {byte : Nat} {mode : EnvelopeMode} :
    modeOfByte byte = .ok mode ↔ byte = mode.byte.toNat := by
  unfold modeOfByte
  by_cases hzero : byte = 0
  · rw [if_pos hzero, hzero]
    cases mode <;> decide
  rw [if_neg hzero]
  by_cases hone : byte = 1
  · rw [if_pos hone, hone]
    cases mode <;> decide
  rw [if_neg hone]
  refine iff_of_false nofun fun hbyte => ?_
  cases mode
  · exact hzero hbyte
  · exact hone hbyte

/-- The beginning of a header that has this protocol. -/
def preamble (protocol : Bytes) (mode : EnvelopeMode) : Bytes :=
  varField protocol ++ (u16le envelopeVersion ++ [mode.byte])

theorem readPreamble_iff {envelope : Bytes} {mode : EnvelopeMode} {pos : Nat} :
    readPreamble envelope = .ok (mode, pos) ↔
      ∃ protocol, FieldFits protocol ∧ decodeText protocol = envelopeProtocol ∧
        Spans envelope 0 (preamble protocol mode) pos := by
  have hbyte : ∀ mode : EnvelopeMode, Bytes.toLe 1 mode.byte.toNat = [mode.byte] := by
    intro mode
    cases mode <;> rfl
  rw [readPreamble, reads_var.bind_iff]
  constructor
  · rintro ⟨protocol, p, hfits, hprotocol, h⟩
    dsimp only at h
    by_cases htext : decodeText protocol ≠ envelopeProtocol
    · rw [if_pos htext] at h
      exact nomatch h
    rw [if_neg htext, readVersion, (reads_number (by decide)).bind_iff] at h
    obtain ⟨version, q, -, hversion, h⟩ := h
    dsimp only at h
    by_cases hpinned : version ≠ envelopeVersion
    · rw [if_pos hpinned] at h
      exact nomatch h
    rw [if_neg hpinned, readByte, (reads_number (by decide)).bind_iff] at h
    obtain rfl := Decidable.of_not_not hpinned
    obtain ⟨byte, r, -, hmode, h⟩ := h
    obtain ⟨mode', hof, h⟩ := bind_ok h
    obtain ⟨rfl, rfl⟩ := Prod.mk.inj (Except.ok.inj h)
    obtain rfl := modeOfByte_iff.1 hof
    rw [hbyte] at hmode
    exact ⟨protocol, hfits, Decidable.of_not_not htext, hprotocol.append (hversion.append hmode)⟩
  · rintro ⟨protocol, hfits, htext, hspans⟩
    obtain ⟨hprotocol, hspans⟩ := hspans.split
    obtain ⟨hversion, hmode⟩ := hspans.split
    refine ⟨protocol, _, hfits, hprotocol, ?_⟩
    dsimp only
    rw [if_neg (not_not_intro htext), readVersion, (reads_number (by decide)).bind_iff]
    refine ⟨envelopeVersion, _, by decide, hversion, ?_⟩
    dsimp only
    rw [if_neg (not_not_intro rfl), readByte, (reads_number (by decide)).bind_iff]
    refine ⟨mode.byte.toNat, pos, by cases mode <;> decide, by rw [hbyte]; exact hmode, ?_⟩
    exact bind_of_ok (modeOfByte_iff.2 rfl) rfl

/-- Fields that are as wide as they are written. -/
structure ParsedHeader.Fits (header : ParsedHeader) : Prop where
  canisterId : FieldFits header.canisterId
  owner : FieldFits header.owner
  encSpkiHash : header.encSpkiHash.length = 32
  kdfId : header.kdfId < 256 ^ 1
  memoryKib : header.memoryKib < 256 ^ 4
  iterations : header.iterations < 256 ^ 4
  parallelism : header.parallelism < 256 ^ 4
  salt : FieldFits header.salt

/-- The fields of a header whose device id stands there in these bytes. -/
def ParsedHeader.fields (header : ParsedHeader) (deviceId : Bytes) : Bytes :=
  varField header.canisterId ++ (varField header.owner ++ (varField deviceId ++
    (header.encSpkiHash ++ (Bytes.toLe 1 header.kdfId ++ (u32le header.memoryKib ++
      (u32le header.iterations ++ (u32le header.parallelism ++ varField header.salt)))))))

theorem readFields_iff {envelope : Bytes} {mode : EnvelopeMode} {pos next : Nat}
    {header : ParsedHeader} :
    readFields envelope mode pos = .ok (header, next) ↔
      header.mode = mode ∧ header.version = envelopeVersion ∧ header.Fits ∧
        ∃ deviceId, FieldFits deviceId ∧ header.deviceId = decodeText deviceId ∧
          Spans envelope pos (header.fields deviceId) next := by
  have reads_byte : Cursor.Reads readByte (Bytes.toLe 1) fun n => n < 256 ^ 1 := reads_number (by decide)
  have reads_u32 : Cursor.Reads readU32 u32le fun n => n < 256 ^ 4 := reads_number (by decide)
  constructor
  · intro h
    rw [readFields] at h
    obtain ⟨canisterId, _, hcanister, scanister, h⟩ := reads_var.bind_iff.1 h
    obtain ⟨owner, _, howner, sowner, h⟩ := reads_var.bind_iff.1 h
    obtain ⟨deviceId, _, hdevice, sdevice, h⟩ := reads_var.bind_iff.1 h
    obtain ⟨hash, _, hhash, shash, h⟩ := reads_keyHash.bind_iff.1 h
    obtain ⟨kdfId, _, hkdf, skdf, h⟩ := reads_byte.bind_iff.1 h
    obtain ⟨memory, _, hmemory, smemory, h⟩ := reads_u32.bind_iff.1 h
    obtain ⟨iterations, _, hiterations, siterations, h⟩ := reads_u32.bind_iff.1 h
    obtain ⟨parallelism, _, hparallelism, sparallelism, h⟩ := reads_u32.bind_iff.1 h
    obtain ⟨salt, _, hsalt, ssalt, h⟩ := reads_var.bind_iff.1 h
    obtain ⟨rfl, rfl⟩ := Prod.mk.inj (Except.ok.inj h)
    refine ⟨rfl, rfl, ⟨hcanister, howner, hhash, hkdf, hmemory, hiterations, hparallelism, hsalt⟩,
      deviceId, hdevice, rfl, ?_⟩
    exact scanister.append (sowner.append (sdevice.append (shash.append (skdf.append
      (smemory.append (siterations.append (sparallelism.append ssalt)))))))
  · rintro ⟨hmode, hversion, hfits, deviceId, hdevice, htext, hspans⟩
    obtain ⟨scanister, hspans⟩ := hspans.split
    obtain ⟨sowner, hspans⟩ := hspans.split
    obtain ⟨sdevice, hspans⟩ := hspans.split
    obtain ⟨shash, hspans⟩ := hspans.split
    obtain ⟨skdf, hspans⟩ := hspans.split
    obtain ⟨smemory, hspans⟩ := hspans.split
    obtain ⟨siterations, hspans⟩ := hspans.split
    obtain ⟨sparallelism, ssalt⟩ := hspans.split
    rw [readFields]
    refine reads_var.bind_iff.2 ⟨_, _, hfits.canisterId, scanister, ?_⟩
    refine reads_var.bind_iff.2 ⟨_, _, hfits.owner, sowner, ?_⟩
    refine reads_var.bind_iff.2 ⟨_, _, hdevice, sdevice, ?_⟩
    refine reads_keyHash.bind_iff.2 ⟨_, _, hfits.encSpkiHash, shash, ?_⟩
    refine reads_byte.bind_iff.2 ⟨_, _, hfits.kdfId, skdf, ?_⟩
    refine reads_u32.bind_iff.2 ⟨_, _, hfits.memoryKib, smemory, ?_⟩
    refine reads_u32.bind_iff.2 ⟨_, _, hfits.iterations, siterations, ?_⟩
    refine reads_u32.bind_iff.2 ⟨_, _, hfits.parallelism, sparallelism, ?_⟩
    refine reads_var.bind_iff.2 ⟨_, _, hfits.salt, ssalt, ?_⟩
    rw [← hmode, ← hversion, ← htext]

/-- What is accepted: a header that keeps to its mode, and a body behind it. -/
theorem decodeEnvelope_iff {envelope : Bytes} {d : DecodedEnvelope} :
    decodeEnvelope envelope = .ok d ↔
      envelope = d.headerBytes ++ d.body ∧ d.body ≠ [] ∧ checkMode d.header d.body = .ok () ∧
        d.header.version = envelopeVersion ∧ d.header.Fits ∧
          ∃ protocol deviceId, FieldFits protocol ∧ decodeText protocol = envelopeProtocol ∧
            FieldFits deviceId ∧ d.header.deviceId = decodeText deviceId ∧
              d.headerBytes = preamble protocol d.header.mode ++ d.header.fields deviceId := by
  obtain ⟨header, headerBytes, body⟩ := d
  rw [decodeEnvelope, bind_eq_ok_iff]
  constructor
  · rintro ⟨⟨mode, pos⟩, hpreamble, h⟩
    dsimp only at h
    obtain ⟨⟨header', next⟩, hfields, h'⟩ := bind_ok h
    dsimp only at h'
    obtain ⟨protocol, hprotocol, htext, spreamble⟩ := readPreamble_iff.1 hpreamble
    obtain ⟨rfl, hversion, hfits, deviceId, hdevice, hid, sfields⟩ := readFields_iff.1 hfields
    obtain ⟨hfront, htake⟩ := (spreamble.append sfields).front
    by_cases hempty : (envelope.drop next).length = 0
    · rw [if_pos hempty] at h'
      exact nomatch h'
    rw [if_neg hempty] at h'
    obtain ⟨⟨⟩, hcheck, hd⟩ := bind_ok h'
    obtain ⟨rfl, rfl, rfl⟩ := DecodedEnvelope.mk.inj (Except.ok.inj hd)
    exact ⟨(List.take_append_drop ..).symm, fun hnil => hempty (List.length_eq_zero_iff.2 hnil), hcheck,
      hversion, hfits, protocol, deviceId, hprotocol, htext, hdevice, hid, htake⟩
  · rintro ⟨henvelope, hbody, hcheck, hversion, hfits, protocol, deviceId, hprotocol, htext, hdevice,
      hid, hheader⟩
    dsimp only at henvelope hbody hcheck hversion hfits hid hheader
    have hspans := spans_front headerBytes body
    rw [← henvelope] at hspans
    conv at hspans => arg 3; rw [hheader]
    obtain ⟨spreamble, sfields⟩ := hspans.split
    have hpreamble := readPreamble_iff.2 ⟨protocol, hprotocol, htext, spreamble⟩
    have hfields := readFields_iff.2 ⟨rfl, hversion, hfits, deviceId, hdevice, hid, sfields⟩
    have hdrop : envelope.drop headerBytes.length = body := by rw [henvelope, List.drop_left]
    have htake : envelope.take headerBytes.length = headerBytes := by rw [henvelope, List.take_left]
    refine ⟨(header.mode, _), hpreamble, bind_of_ok hfields ?_⟩
    dsimp only
    rw [hdrop, htake, if_neg (fun hnil => hbody (List.length_eq_zero_iff.1 hnil))]
    exact bind_of_ok hcheck rfl

theorem checkMode_iiOnly {header : ParsedHeader} {body : Bytes} (hmode : header.mode = .iiOnly) :
    checkMode header body = .ok () ↔
      header.salt = [] ∧ header.kdfId = 0 ∧ header.memoryKib = 0 ∧ header.iterations = 0 ∧
        header.parallelism = 0 := by
  rw [checkMode, hmode]
  dsimp only
  rw [← List.length_eq_zero_iff]
  split
  · refine iff_of_false nofun ?_
    omega
  · refine iff_of_true rfl ?_
    omega

theorem checkMode_passcode {header : ParsedHeader} {body : Bytes} (hmode : header.mode = .passcode) :
    checkMode header body = .ok () ↔
      header.kdfId = kdfVersionArgon2id ∧ header.memoryKib = argon2idMemoryKib ∧
        header.iterations = argon2idIterations ∧ header.parallelism = argon2idParallelism ∧
          header.salt.length = argon2idSaltBytes ∧ envelopeGcmNonceBytes < body.length := by
  rw [checkMode, hmode]
  dsimp only
  split
  · next h => exact iff_of_false nofun fun hall => h hall.1
  split
  · next h =>
    refine iff_of_false nofun fun ⟨_, hmemory, hiterations, hparallelism, _⟩ => ?_
    rcases h with h | h | h
    · exact h hmemory
    · exact h hiterations
    · exact h hparallelism
  split
  · next h => exact iff_of_false nofun fun ⟨_, _, _, _, hsalt, _⟩ => h hsalt
  split
  · next h => exact iff_of_false nofun fun ⟨_, _, _, _, _, hbody⟩ => Nat.not_lt.2 h hbody
  · next hkdf hpinned hsalt hbody =>
    refine iff_of_true rfl ⟨Decidable.of_not_not hkdf, ?_, ?_, ?_, Decidable.of_not_not hsalt,
      Nat.not_le.1 hbody⟩
    · exact Decidable.of_not_not fun h => hpinned (.inl h)
    · exact Decidable.of_not_not fun h => hpinned (.inr (.inl h))
    · exact Decidable.of_not_not fun h => hpinned (.inr (.inr h))

/-! ### What the functions of the platform are taken to do -/

/-- A sealing somebody made who knew the passcode. -/
structure Sealing where
  passcode : JsString
  salt : Bytes
  nonce : Bytes
  header : Bytes
  plaintext : Bytes

section Ideal
variable {Key : Type} (C : EnvelopeCrypto Key)

def Sealing.key (s : Sealing) : Key := derivePasscodeKeyBytes C s.passcode s.salt

/-- Ideal functions: what a ciphertext is decrypted to was sealed under that key, nonce and
additional data, and no two passcodes or salts have one key. -/
structure IdealCrypto (made : Sealing → Prop) : Prop where
  encrypt_length (key : Key) (iv additionalData plaintext : Bytes) :
    (C.encrypt key iv additionalData plaintext).length = plaintext.length + 16
  decrypt_encrypt (key : Key) (iv additionalData plaintext : Bytes) :
    C.decrypt key iv additionalData (C.encrypt key iv additionalData plaintext) = some plaintext
  authentic (key : Key) (iv additionalData ciphertext plaintext : Bytes)
    (h : C.decrypt key iv additionalData ciphertext = some plaintext) :
    ∃ s, made s ∧ s.key C = key ∧ s.nonce = iv ∧ s.header = additionalData ∧
      s.plaintext = plaintext ∧ ciphertext = C.encrypt key iv additionalData plaintext
  argon2id_inj (passcode passcode' : JsString) (salt salt' : Bytes)
    (h : derivePasscodeKeyBytes C passcode salt = derivePasscodeKeyBytes C passcode' salt') :
    passcode = passcode' ∧ salt = salt'

/-! ### Headers -/

/-- The header as it would be read back. -/
def EnvelopeHeader.parsed (header : EnvelopeHeader) : ParsedHeader where
  canisterId := header.canisterId.asSlice
  owner := header.owner.asSlice
  deviceId := decodeText (encodeText header.deviceId.val)
  encSpkiHash := (C.sha256 header.encSpki).val
  mode := header.mode
  version := header.version
  kdfId := header.kdfId
  memoryKib := header.memoryKib
  iterations := header.iterations
  parallelism := header.parallelism
  salt := header.salt

theorem encodeHeader_eq (header : EnvelopeHeader) :
    encodeHeader C header =
      varField (encodeText envelopeProtocol) ++ (u16le header.version ++ ([header.mode.byte] ++
        (header.parsed C).fields (encodeText header.deviceId.val))) := by
  simp only [encodeHeader, concatBytes, List.flatten_cons, List.flatten_nil, List.append_nil]
  rfl

theorem encodeHeader_pinned {header : EnvelopeHeader} (h : header.version = envelopeVersion) :
    encodeHeader C header = preamble (encodeText envelopeProtocol) header.mode ++
      (header.parsed C).fields (encodeText header.deviceId.val) := by
  rw [encodeHeader_eq, preamble, h, List.append_assoc, List.append_assoc]

/-- A written envelope is read as what was written. -/
theorem decodeEnvelope_written {header : EnvelopeHeader} {body : Bytes}
    (hversion : header.version = envelopeVersion) (hfits : (header.parsed C).Fits)
    (hcheck : checkMode (header.parsed C) body = .ok ()) (hbody : body ≠ []) :
    decodeEnvelope (encodeHeader C header ++ body) =
      .ok ⟨header.parsed C, encodeHeader C header, body⟩ := by
  refine decodeEnvelope_iff.2 ⟨rfl, hbody, hcheck, hversion, hfits, encodeText envelopeProtocol,
    encodeText header.deviceId.val, ?_, ?_, header.deviceId.2, rfl, encodeHeader_pinned C hversion⟩
  · unfold FieldFits
    decide +kernel
  · decide +kernel

theorem iiOnlyHeader_fits (binding : EnvelopeBinding) : (binding.iiOnlyHeader.parsed C).Fits := by
  have hbyte : 0 < 256 ^ 1 := by decide
  have hword : 0 < 256 ^ 4 := by decide
  exact ⟨principal_fits _, principal_fits _, (C.sha256 binding.encSpki).2, hbyte, hword, hword, hword,
    hword⟩

theorem passcodeHeader_fits (binding : EnvelopeBinding) {salt : Bytes}
    (hsalt : salt.length = argon2idSaltBytes) : ((binding.passcodeHeader salt).parsed C).Fits := by
  have hkdf : kdfVersionArgon2id < 256 ^ 1 := by decide
  have hmemory : argon2idMemoryKib < 256 ^ 4 := by decide
  have hiterations : argon2idIterations < 256 ^ 4 := by decide
  have hparallelism : argon2idParallelism < 256 ^ 4 := by decide
  have hfits : argon2idSaltBytes < 2 ^ 32 := by decide
  exact ⟨principal_fits _, principal_fits _, (C.sha256 binding.encSpki).2, hkdf, hmemory, hiterations,
    hparallelism, Nat.lt_of_le_of_lt (Nat.le_of_eq hsalt) hfits⟩

theorem openSealed_iff {parsed : DecodedEnvelope} {passcode : JsString} {plaintext : Bytes} :
    openSealed C parsed passcode = .ok plaintext ↔
      C.decrypt (derivePasscodeKeyBytes C passcode parsed.header.salt)
        (parsed.body.take envelopeGcmNonceBytes) parsed.headerBytes
          (parsed.body.drop envelopeGcmNonceBytes) = some plaintext := by
  rw [openSealed]
  cases C.decrypt (derivePasscodeKeyBytes C passcode parsed.header.salt)
      (parsed.body.take envelopeGcmNonceBytes) parsed.headerBytes
      (parsed.body.drop envelopeGcmNonceBytes) with
  | none => exact iff_of_false nofun nofun
  | some p => rw [Except.ok.injEq, Option.some.injEq]

/-- What is built is opened again. -/
theorem openEnvelope_build {made : Sealing → Prop} (ideal : IdealCrypto C made)
    (binding : EnvelopeBinding) (deviceCiphertext : Bytes) (passcode : Option JsString)
    {salt nonce : Bytes} (hsalt : salt.length = argon2idSaltBytes)
    (hnonce : nonce.length = envelopeGcmNonceBytes) (hciphertext : deviceCiphertext ≠ []) :
    openEnvelope C (buildEnvelope C binding deviceCiphertext passcode salt nonce) binding passcode =
      .ok deviceCiphertext := by
  cases passcode with
  | none =>
    have hdecode := @decodeEnvelope_written Key C binding.iiOnlyHeader deviceCiphertext rfl
      (iiOnlyHeader_fits C binding) ((checkMode_iiOnly rfl).2 ⟨rfl, rfl, rfl, rfl, rfl⟩) hciphertext
    have hbuilt : buildEnvelope C binding deviceCiphertext none salt nonce =
        encodeHeader C binding.iiOnlyHeader ++ deviceCiphertext := by
      rw [buildEnvelope, concatBytes, List.flatten_cons, List.flatten_cons, List.flatten_nil,
        List.append_nil]
    rw [openEnvelope, hbuilt]
    refine bind_of_ok hdecode ?_
    exact if_neg (not_not_intro rfl)
  | some passcode =>
    let header := encodeHeader C (binding.passcodeHeader salt)
    let sealed := C.encrypt (derivePasscodeKeyBytes C passcode salt) nonce header deviceCiphertext
    have hlength : (nonce ++ sealed).length = 12 + (deviceCiphertext.length + 16) := by
      rw [List.length_append, hnonce, ideal.encrypt_length]
      rfl
    have hcheck : checkMode ((binding.passcodeHeader salt).parsed C) (nonce ++ sealed) = .ok () := by
      refine (checkMode_passcode rfl).2 ⟨rfl, rfl, rfl, rfl, hsalt, ?_⟩
      rw [hlength]
      exact Nat.lt_of_lt_of_le (by decide : 12 < 12 + 16) (by omega)
    have hdecode := @decodeEnvelope_written Key C (binding.passcodeHeader salt) (nonce ++ sealed) rfl
      (passcodeHeader_fits C binding hsalt) hcheck (List.ne_nil_of_length_pos (by omega))
    have hbuilt : buildEnvelope C binding deviceCiphertext (some passcode) salt nonce =
        header ++ (nonce ++ sealed) := by
      show concatBytes [header, nonce, sealed] = _
      rw [concatBytes, List.flatten_cons, List.flatten_cons, List.flatten_cons, List.flatten_nil,
        List.append_nil]
    rw [openEnvelope, hbuilt]
    refine bind_of_ok hdecode ?_
    refine (if_neg (not_not_intro rfl)).trans ((openSealed_iff C).2 ?_)
    have htake : (nonce ++ sealed).take envelopeGcmNonceBytes = nonce := by
      rw [← hnonce, List.take_left]
    have hdrop : (nonce ++ sealed).drop envelopeGcmNonceBytes = sealed := by
      rw [← hnonce, List.drop_left]
    show C.decrypt (derivePasscodeKeyBytes C passcode salt)
      ((nonce ++ sealed).take envelopeGcmNonceBytes) header
        ((nonce ++ sealed).drop envelopeGcmNonceBytes) = _
    rw [htake, hdrop, ideal.decrypt_encrypt]

/-- What is opened was built for this binding, in the mode the passcode tells, and if there is a
passcode it was sealed with it, under this header. -/
theorem built_of_open {made : Sealing → Prop} (ideal : IdealCrypto C made) {envelope : Bytes}
    {binding : EnvelopeBinding} {passcode : Option JsString} {deviceCiphertext : Bytes}
    (h : openEnvelope C envelope binding passcode = .ok deviceCiphertext) :
    passcode = none ∧ deviceCiphertext ≠ [] ∧
        envelope = encodeHeader C binding.iiOnlyHeader ++ deviceCiphertext ∨
      ∃ s, made s ∧ passcode = some s.passcode ∧ s.salt.length = argon2idSaltBytes ∧
        s.nonce.length = envelopeGcmNonceBytes ∧ s.plaintext = deviceCiphertext ∧
        s.header = encodeHeader C (binding.passcodeHeader s.salt) ∧
        C.encrypt (s.key C) s.nonce s.header s.plaintext ≠ [] ∧
        envelope = s.header ++ (s.nonce ++ C.encrypt (s.key C) s.nonce s.header s.plaintext) := by
  rw [openEnvelope] at h
  obtain ⟨⟨header, headerBytes, body⟩, hdecode, h⟩ := bind_ok h
  obtain ⟨henvelope, hbody, hcheck, hversion, -, -⟩ := decodeEnvelope_iff.1 hdecode
  dsimp only at henvelope hbody hcheck hversion h
  by_cases hbinding : encodeHeader C (expectedHeader binding header) ≠ headerBytes
  · rw [if_pos hbinding] at h
    exact nomatch h
  rw [if_neg hbinding] at h
  have hheader := Decidable.of_not_not hbinding
  cases hmode : header.mode with
  | iiOnly =>
    obtain ⟨hsalt, hkdf, hmemory, hiterations, hparallelism⟩ := (checkMode_iiOnly hmode).1 hcheck
    have hexpected : expectedHeader binding header = binding.iiOnlyHeader := by
      rw [expectedHeader, hmode, hversion, hsalt, hkdf, hmemory, hiterations, hparallelism]
      rfl
    cases passcode with
    | none =>
      simp only [openBody, hmode] at h
      obtain rfl := Except.ok.inj h
      exact .inl ⟨rfl, hbody, by rw [henvelope, ← hheader, hexpected]⟩
    | some passcode =>
      simp only [openBody, hmode] at h
      exact nomatch h
  | passcode =>
    obtain ⟨hkdf, hmemory, hiterations, hparallelism, hsalt, hnonce⟩ := (checkMode_passcode hmode).1 hcheck
    have hexpected : expectedHeader binding header = binding.passcodeHeader header.salt := by
      rw [expectedHeader, hmode, hversion, hkdf, hmemory, hiterations, hparallelism]
      rfl
    rw [hexpected] at hheader
    cases passcode with
    | none =>
      simp only [openBody, hmode] at h
      exact nomatch h
    | some passcode =>
      simp only [openBody, hmode] at h
      obtain ⟨s, hmade, hkey, hiv, hsealed, hplain, hciphertext⟩ :=
        ideal.authentic _ _ _ _ _ ((openSealed_iff C).1 h)
      obtain ⟨hpasscode, hsaltEq⟩ := ideal.argon2id_inj _ _ _ _ hkey
      dsimp only at hiv hsealed hciphertext hsaltEq
      have hencrypt : C.encrypt (s.key C) s.nonce s.header s.plaintext = body.drop envelopeGcmNonceBytes := by
        rw [hkey, hiv, hsealed, hplain]
        exact hciphertext.symm
      refine .inr ⟨s, hmade, by rw [hpasscode], hsaltEq ▸ hsalt, ?_, hplain, ?_, ?_, ?_⟩
      · rw [hiv, List.length_take]
        exact Nat.min_eq_left (Nat.le_of_lt hnonce)
      · rw [hsealed, hsaltEq, hheader]
      · rw [hencrypt]
        exact List.ne_nil_of_length_pos (by rw [List.length_drop]; omega)
      · rw [hencrypt, hiv, hsealed, List.take_append_drop, henvelope]

/-! ### Headers that encode alike -/

/-- Headers are alike where they are written alike: device ids as texts, numbers as far as their
width goes. -/
structure Alike (header header' : EnvelopeHeader) : Prop where
  canisterId : header.canisterId = header'.canisterId
  owner : header.owner = header'.owner
  deviceId : Utf16.scalars header.deviceId.val = Utf16.scalars header'.deviceId.val
  encSpki : C.sha256 header.encSpki = C.sha256 header'.encSpki
  mode : header.mode = header'.mode
  version : header.version % 2 ^ 16 = header'.version % 2 ^ 16
  kdfId : header.kdfId % 2 ^ 8 = header'.kdfId % 2 ^ 8
  memoryKib : header.memoryKib % 2 ^ 32 = header'.memoryKib % 2 ^ 32
  iterations : header.iterations % 2 ^ 32 = header'.iterations % 2 ^ 32
  parallelism : header.parallelism % 2 ^ 32 = header'.parallelism % 2 ^ 32
  salt : header.salt = header'.salt

/-- Numbers that are no wider than they are written. -/
structure EnvelopeHeader.Narrow (header : EnvelopeHeader) : Prop where
  version : header.version < 2 ^ 16
  kdfId : header.kdfId < 2 ^ 8
  memoryKib : header.memoryKib < 2 ^ 32
  iterations : header.iterations < 2 ^ 32
  parallelism : header.parallelism < 2 ^ 32

theorem toLe_append_mod {width m n : Nat} {x y : Bytes}
    (h : Bytes.toLe width m ++ x = Bytes.toLe width n ++ y) :
    m % 256 ^ width = n % 256 ^ width ∧ x = y := by
  obtain ⟨hfront, hrest⟩ := List.append_inj h (by rw [Bytes.length_toLe, Bytes.length_toLe])
  have hof := congrArg Bytes.ofLe hfront
  rw [Bytes.ofLe_toLe, Bytes.ofLe_toLe] at hof
  exact ⟨hof, hrest⟩

theorem principalField_append_inj {p q : PrincipalBytes} {x y : Bytes}
    (h : varField p.asSlice ++ x = varField q.asSlice ++ y) : p = q ∧ x = y := by
  rw [varField_eq, varField_eq] at h
  exact principal_append_inj h

theorem varField_append_inj {field field' x y : Bytes} (hfits : FieldFits field)
    (hfits' : FieldFits field') (h : varField field ++ x = varField field' ++ y) :
    field = field' ∧ x = y := by
  rw [varField_eq, varField_eq] at h
  exact pushVar_append_inj hfits hfits' h

theorem alike_of_encode {header header' : EnvelopeHeader}
    (h : encodeHeader C header = encodeHeader C header') : Alike C header header' := by
  rw [encodeHeader_eq, encodeHeader_eq] at h
  obtain ⟨hversion, h⟩ := toLe_append_mod (List.append_cancel_left h)
  obtain ⟨hmode, h⟩ := List.cons.inj h
  obtain ⟨hcanister, h⟩ := principalField_append_inj h
  obtain ⟨howner, h⟩ := principalField_append_inj h
  obtain ⟨hdevice, h⟩ := varField_append_inj header.deviceId.2 header'.deviceId.2 h
  obtain ⟨hkey, h⟩ := hash_append_inj h
  obtain ⟨hkdf, h⟩ := toLe_append_mod h
  obtain ⟨hmemory, h⟩ := toLe_append_mod h
  obtain ⟨hiterations, h⟩ := toLe_append_mod h
  obtain ⟨hparallelism, h⟩ := toLe_append_mod h
  have hsalt : header.salt = header'.salt := by
    change varField header.salt = varField header'.salt at h
    rw [varField_eq, varField_eq] at h
    exact (List.append_inj h (by rw [Bytes.length_toLe, Bytes.length_toLe])).2
  have hmode' : header.mode = header'.mode := by
    revert hmode
    cases header.mode <;> cases header'.mode <;> decide
  exact ⟨hcanister, howner, Utf16.scalars_of_utf8 hdevice, hkey, hmode', hversion, hkdf, hmemory,
    hiterations, hparallelism, hsalt⟩

/-- Headers that are alike are one, if they say what is written of them, and the hash tells their
keys apart. -/
theorem Alike.eq {header header' : EnvelopeHeader} (h : Alike C header header')
    (hdevice : Utf16.WellFormed header.deviceId.val) (hdevice' : Utf16.WellFormed header'.deviceId.val)
    (hkeys : C.sha256 header.encSpki = C.sha256 header'.encSpki → header.encSpki = header'.encSpki)
    (hnarrow : header.Narrow) (hnarrow' : header'.Narrow) : header = header' := by
  have hid : header.deviceId = header'.deviceId :=
    Subtype.ext (hdevice.symm.trans ((congrArg Utf16.ofText h.deviceId).trans hdevice'))
  have hnumber : ∀ {w m n : Nat}, m < w → n < w → m % w = n % w → m = n := by
    intro w m n hm hn heq
    rwa [Nat.mod_eq_of_lt hm, Nat.mod_eq_of_lt hn] at heq
  have hversion := hnumber hnarrow.version hnarrow'.version h.version
  have hkdf := hnumber hnarrow.kdfId hnarrow'.kdfId h.kdfId
  have hmemory := hnumber hnarrow.memoryKib hnarrow'.memoryKib h.memoryKib
  have hiterations := hnumber hnarrow.iterations hnarrow'.iterations h.iterations
  have hparallelism := hnumber hnarrow.parallelism hnarrow'.parallelism h.parallelism
  have hkey := hkeys h.encSpki
  obtain ⟨hcanister, howner, -, -, hmode, -, -, -, -, -, hsalt⟩ := h
  cases header with
  | mk binding mode version kdfId memoryKib iterations parallelism salt =>
    cases header' with
    | mk binding' mode' version' kdfId' memoryKib' iterations' parallelism' salt' =>
      cases binding with
      | mk canisterId owner deviceId encSpki =>
        cases binding' with
        | mk canisterId' owner' deviceId' encSpki' =>
          rw [EnvelopeHeader.mk.injEq, EnvelopeBinding.mk.injEq]
          exact ⟨⟨hcanister, howner, hid, hkey⟩, hmode, hversion, hkdf, hmemory, hiterations,
            hparallelism, hsalt⟩

/-! ### The codec -/

/-- An envelope is opened as it was built, and opened only if it was built for this binding, in the
mode the passcode tells; headers that encode alike agree wherever they are written; and whatever the
bytes, what is read of them is a header that ends before a body. -/
theorem envelope_codec {made : Sealing → Prop} (ideal : IdealCrypto C made) :
    (∀ (binding : EnvelopeBinding) (deviceCiphertext : Bytes) (passcode : Option JsString)
      (salt nonce : Bytes), salt.length = argon2idSaltBytes → nonce.length = envelopeGcmNonceBytes →
        deviceCiphertext ≠ [] →
          openEnvelope C (buildEnvelope C binding deviceCiphertext passcode salt nonce) binding passcode =
            .ok deviceCiphertext) ∧
    (∀ (envelope : Bytes) (binding : EnvelopeBinding) (passcode : Option JsString)
      (deviceCiphertext : Bytes), openEnvelope C envelope binding passcode = .ok deviceCiphertext →
        passcode = none ∧ deviceCiphertext ≠ [] ∧
            envelope = encodeHeader C binding.iiOnlyHeader ++ deviceCiphertext ∨
          ∃ s, made s ∧ passcode = some s.passcode ∧ s.salt.length = argon2idSaltBytes ∧
            s.nonce.length = envelopeGcmNonceBytes ∧ s.plaintext = deviceCiphertext ∧
            s.header = encodeHeader C (binding.passcodeHeader s.salt) ∧
            C.encrypt (s.key C) s.nonce s.header s.plaintext ≠ [] ∧
            envelope = s.header ++ (s.nonce ++ C.encrypt (s.key C) s.nonce s.header s.plaintext)) ∧
    (∀ header header' : EnvelopeHeader, encodeHeader C header = encodeHeader C header' →
      Alike C header header' ∧
        (Utf16.WellFormed header.deviceId.val → Utf16.WellFormed header'.deviceId.val →
          (∃ keys, Set.InjOn C.sha256 keys ∧ header.encSpki ∈ keys ∧ header'.encSpki ∈ keys) →
          header.Narrow → header'.Narrow → header = header')) ∧
    ∀ (envelope : Bytes) (d : DecodedEnvelope), decodeEnvelope envelope = .ok d →
      envelope = d.headerBytes ++ d.body ∧ d.body ≠ [] ∧ checkMode d.header d.body = .ok () ∧
        d.header.version = envelopeVersion ∧ d.header.Fits ∧
          ∃ protocol deviceId, FieldFits protocol ∧ decodeText protocol = envelopeProtocol ∧
            FieldFits deviceId ∧ d.header.deviceId = decodeText deviceId ∧
              d.headerBytes = preamble protocol d.header.mode ++ d.header.fields deviceId := by
  refine ⟨?_, ?_, ?_, fun envelope d h => decodeEnvelope_iff.1 h⟩
  · intro binding deviceCiphertext passcode salt nonce hsalt hnonce hne
    exact openEnvelope_build C ideal binding deviceCiphertext passcode hsalt hnonce hne
  · intro envelope binding passcode deviceCiphertext h
    exact built_of_open C ideal h
  · intro header header' h
    have halike := alike_of_encode C h
    refine ⟨halike, fun hdevice hdevice' ⟨keys, hinj, hkey, hkey'⟩ hnarrow hnarrow' => ?_⟩
    exact halike.eq C hdevice hdevice' (fun hhash => hinj hkey hkey' hhash) hnarrow hnarrow'

end Ideal

/-! ### An envelope without a passcode -/

section Sample

/-- Keys that are what they were made of, and ciphertexts with a plain tag. -/
def sampleCrypto : EnvelopeCrypto (JsString × Bytes) where
  sha256 message := ⟨Bytes.toBe 32 (Sha256.sha256 message).toNat, Bytes.length_toBe ..⟩
  argon2id password salt _ _ _ _ := (password, salt)
  encrypt _ _ _ plaintext := List.replicate 16 0 ++ plaintext
  decrypt _ _ _ ciphertext :=
    if ciphertext.take 16 = List.replicate 16 0 then some (ciphertext.drop 16) else none

theorem sampleCrypto_ideal : IdealCrypto sampleCrypto fun _ => True where
  encrypt_length key iv additionalData plaintext := by
    show (List.replicate 16 0 ++ plaintext).length = _
    rw [List.length_append, List.length_replicate, Nat.add_comm]
  decrypt_encrypt key iv additionalData plaintext := by
    show (if (List.replicate 16 0 ++ plaintext).take 16 = List.replicate 16 0 then
      some ((List.replicate 16 0 ++ plaintext).drop 16) else none) = _
    have htake : (List.replicate 16 (0 : UInt8) ++ plaintext).take 16 = List.replicate 16 0 :=
      List.take_left' List.length_replicate
    have hdrop : (List.replicate 16 (0 : UInt8) ++ plaintext).drop 16 = plaintext :=
      List.drop_left' List.length_replicate
    rw [if_pos htake, hdrop]
  authentic key iv additionalData ciphertext plaintext h := by
    obtain ⟨htake, hdrop⟩ := Option.ite_none_right_eq_some.1 h
    refine ⟨⟨key.1, key.2, iv, additionalData, plaintext⟩, trivial, rfl, rfl, rfl, rfl, ?_⟩
    show ciphertext = List.replicate 16 0 ++ plaintext
    rw [← htake, ← Option.some.inj hdrop, List.take_append_drop]
  argon2id_inj _ _ _ _ h := Prod.mk.inj h

def surrogateId : DeviceId := ⟨[0xD800], by unfold FieldFits; decide +kernel⟩

def replacementId : DeviceId := ⟨[0xFFFD], by unfold FieldFits; decide +kernel⟩

def sampleBinding (id : DeviceId) : EnvelopeBinding :=
  ⟨⟨[0, 0, 0, 0, 0, 48, 0, 2, 1, 1], by decide⟩, .anonymous, id, [48, 130]⟩

theorem envelope_codec_iiOnly :
    openEnvelope sampleCrypto (buildEnvelope sampleCrypto (sampleBinding replacementId) [7, 7] none
      (List.replicate 16 1) (List.replicate 12 2)) (sampleBinding replacementId) none = .ok [7, 7] :=
  (envelope_codec sampleCrypto sampleCrypto_ideal).1 _ _ _ _ _ rfl rfl (List.cons_ne_nil _ _)

/-- Half a surrogate pair is written as the replacement character is. -/
theorem encodeHeader_not_injective :
    encodeHeader sampleCrypto (sampleBinding surrogateId).iiOnlyHeader =
        encodeHeader sampleCrypto (sampleBinding replacementId).iiOnlyHeader ∧
      (sampleBinding surrogateId).iiOnlyHeader.deviceId ≠
        (sampleBinding replacementId).iiOnlyHeader.deviceId := by
  have hid : encodeText surrogateId.val = encodeText replacementId.val := by decide +kernel
  refine ⟨?_, fun h => ?_⟩
  · simp only [encodeHeader, EnvelopeBinding.iiOnlyHeader, sampleBinding, hid]
  · exact absurd (congrArg Subtype.val h) (by decide)

end Sample

end StshProtocol.Wallet.Envelope
