import StshProtocol.Wallet.Cache.State
import StshProtocol.Foundation.Ecdsa
import StshProtocol.Vetkeys.Statements
import StshProtocol.Wallet.Text

/-! What a device signs, in the wallet.

The wallet writes the transcripts a second time. Each is the canister's own byte for byte, and a
signature is given with the lower of its two scalars, which makes it a signature of the same
transcripts by the same keys (`signs_same_bytes`). -/
namespace StshProtocol.Wallet
open Foundation ShieldedPool Vesting Vetkeys

def nonceBytes : Nat := 16

inductive DeviceError where
  | fixedWidth (name : String) (width got : Nat)
  | signatureLength (got : Nat)
  deriving DecidableEq, Repr

def DeviceError.message : DeviceError → String
  | .fixedWidth name width got => s!"{name} must be exactly {width} bytes, got {got}"
  | .signatureLength got => s!"expected a 64-byte P-256 (r || s) signature, got {got}"

def assertFixed (bytes : Bytes) (width : Nat) (name : String) : Except DeviceError Unit :=
  if bytes.length ≠ width then .error (.fixedWidth name width bytes.length) else .ok ()

def concatBytes (parts : List Bytes) : Bytes := parts.flatten

def u32le (n : Nat) : Bytes := Bytes.toLe 4 n

def u16le (n : Nat) : Bytes := Bytes.toLe 2 n

/-- `setBigUint64`: the low 64 bits of the number. -/
def u64le (n : Int) : Bytes := Bytes.toLe 8 (n % 2 ^ 64).toNat

def varField (bytes : Bytes) : Bytes := concatBytes [u32le bytes.length, bytes]

/-- `utf8`: what `TextEncoder` makes of a string. -/
def encodeText (s : JsString) : Bytes := Utf16.utf8 s

namespace Devices

def transcriptProtocol : JsString := literal "stsh.vetkeys.device-approval"

def transcriptVersion : Nat := 1

def actionRegisterDevice : JsString := literal "register_device"

def actionRevokeDevice : JsString := literal "revoke_device"

def actionReplaceEnvelope : JsString := literal "replace_envelope"

def actionSetDeviceApprovalPolicy : JsString := literal "set_device_approval_policy"

end Devices

structure ApprovalFields where
  canisterId : PrincipalBytes
  owner : PrincipalBytes
  issuerDeviceId : JsString
  newDeviceId : JsString
  encPubkeyHash : Bytes
  signPubkeyHash : Bytes
  wrappedSecretHash : Bytes
  nonce : Bytes
  expiryNs : Int

def encodeApprovalV1 (f : ApprovalFields) : Except DeviceError Bytes := do
  assertFixed f.encPubkeyHash 32 "encPubkeyHash"
  assertFixed f.signPubkeyHash 32 "signPubkeyHash"
  assertFixed f.wrappedSecretHash 32 "wrappedSecretHash"
  assertFixed f.nonce nonceBytes "nonce"
  return concatBytes [
    varField (encodeText Devices.transcriptProtocol),
    u16le Devices.transcriptVersion,
    varField f.canisterId.asSlice,
    varField (encodeText Devices.actionRegisterDevice),
    varField f.owner.asSlice,
    varField (encodeText f.issuerDeviceId),
    varField (encodeText f.newDeviceId),
    f.encPubkeyHash,
    f.signPubkeyHash,
    f.wrappedSecretHash,
    f.nonce,
    u64le f.expiryNs]

structure RevokeFields where
  canisterId : PrincipalBytes
  owner : PrincipalBytes
  issuerDeviceId : JsString
  targetDeviceId : JsString
  nonce : Bytes
  expiryNs : Int

def encodeRevokeV1 (f : RevokeFields) : Except DeviceError Bytes := do
  assertFixed f.nonce nonceBytes "nonce"
  return concatBytes [
    varField (encodeText Devices.transcriptProtocol),
    u16le Devices.transcriptVersion,
    varField f.canisterId.asSlice,
    varField (encodeText Devices.actionRevokeDevice),
    varField f.owner.asSlice,
    varField (encodeText f.issuerDeviceId),
    varField (encodeText f.targetDeviceId),
    f.nonce,
    u64le f.expiryNs]

structure ReplaceFields where
  canisterId : PrincipalBytes
  owner : PrincipalBytes
  deviceId : JsString
  oldEnvelopeHash : Bytes
  newEnvelopeHash : Bytes
  nonce : Bytes
  expiryNs : Int

def encodeReplaceV1 (f : ReplaceFields) : Except DeviceError Bytes := do
  assertFixed f.oldEnvelopeHash 32 "oldEnvelopeHash"
  assertFixed f.newEnvelopeHash 32 "newEnvelopeHash"
  assertFixed f.nonce nonceBytes "nonce"
  return concatBytes [
    varField (encodeText Devices.transcriptProtocol),
    u16le Devices.transcriptVersion,
    varField f.canisterId.asSlice,
    varField (encodeText Devices.actionReplaceEnvelope),
    varField f.owner.asSlice,
    varField (encodeText f.deviceId),
    f.oldEnvelopeHash,
    f.newEnvelopeHash,
    f.nonce,
    u64le f.expiryNs]

structure SetDeviceApprovalPolicyFields where
  canisterId : PrincipalBytes
  owner : PrincipalBytes
  issuerDeviceId : JsString
  requireDeviceApproval : Bool
  nonce : Bytes
  expiryNs : Int

def encodeSetDeviceApprovalPolicyV1 (f : SetDeviceApprovalPolicyFields) :
    Except DeviceError Bytes := do
  assertFixed f.nonce nonceBytes "nonce"
  return concatBytes [
    varField (encodeText Devices.transcriptProtocol),
    u16le Devices.transcriptVersion,
    varField f.canisterId.asSlice,
    varField (encodeText Devices.actionSetDeviceApprovalPolicy),
    varField f.owner.asSlice,
    varField (encodeText f.issuerDeviceId),
    [if f.requireDeviceApproval then 1 else 0],
    f.nonce,
    u64le f.expiryNs]

/-! ### Transcripts -/

theorem assertFixed_ok {bytes : Bytes} {width : Nat} (name : String) (h : bytes.length = width) :
    assertFixed bytes width name = .ok () := if_neg (not_not.2 h)

theorem assertFixed_nonce (nonce : Nonce16) : assertFixed nonce.val nonceBytes "nonce" = .ok () :=
  assertFixed_ok "nonce" nonce.property

theorem varField_eq (bytes : Bytes) : varField bytes = pushVar bytes := by
  rw [varField, concatBytes, List.flatten_cons, List.flatten_cons, List.flatten_nil,
    List.append_nil]
  rfl

theorem encodeText_literal (s : String) : encodeText (literal s) = Token.tag s := Utf16.utf8_ofText s

theorem u64le_nat (n : Nat) : u64le n = Bytes.toLe 8 n := by
  have hlow : ((n : Int) % 2 ^ 64).toNat = n % 2 ^ 64 := by omega
  rw [u64le, hlow]
  have hbytes := Bytes.toLe_ofLe (Bytes.toLe 8 n)
  rw [Bytes.length_toLe, Bytes.ofLe_toLe] at hbytes
  exact hbytes

section Transcripts
variable (c p : PrincipalBytes) (i d : JsString) (nonce : Nonce16) (expiryNs : Nat)

theorem encodeApprovalV1_eq (e s w : Hash32) :
    encodeApprovalV1 ⟨c, p, i, d, e.val, s.val, w.val, nonce.val, expiryNs⟩ =
      .ok (ApprovalV1.encode ⟨c, p, encodeText i, encodeText d, e, s, w, nonce, expiryNs⟩) := by
  rw [encodeApprovalV1, assertFixed_ok _ e.property, assertFixed_ok _ s.property,
    assertFixed_ok _ w.property, assertFixed_nonce]
  simp only [concatBytes, varField_eq, encodeText_literal, u64le_nat, List.flatten_cons,
    List.flatten_nil, List.append_nil, Devices.transcriptProtocol, Devices.actionRegisterDevice,
    ApprovalV1.encode, transcriptHead, transcriptTail, List.append_assoc]
  rfl

theorem encodeRevokeV1_eq :
    encodeRevokeV1 ⟨c, p, i, d, nonce.val, expiryNs⟩ =
      .ok (RevokeV1.encode ⟨c, p, encodeText i, encodeText d, nonce, expiryNs⟩) := by
  rw [encodeRevokeV1, assertFixed_nonce]
  simp only [concatBytes, varField_eq, encodeText_literal, u64le_nat, List.flatten_cons,
    List.flatten_nil, List.append_nil, Devices.transcriptProtocol, Devices.actionRevokeDevice,
    RevokeV1.encode, transcriptHead, transcriptTail, List.append_assoc]
  rfl

theorem encodeReplaceV1_eq (old new : Hash32) :
    encodeReplaceV1 ⟨c, p, d, old.val, new.val, nonce.val, expiryNs⟩ =
      .ok (ReplaceV1.encode ⟨c, p, encodeText d, old, new, nonce, expiryNs⟩) := by
  rw [encodeReplaceV1, assertFixed_ok _ old.property, assertFixed_ok _ new.property,
    assertFixed_nonce]
  simp only [concatBytes, varField_eq, encodeText_literal, u64le_nat, List.flatten_cons,
    List.flatten_nil, List.append_nil, Devices.transcriptProtocol, Devices.actionReplaceEnvelope,
    ReplaceV1.encode, transcriptHead, transcriptTail, List.append_assoc]
  rfl

theorem encodeSetDeviceApprovalPolicyV1_eq (require : Bool) :
    encodeSetDeviceApprovalPolicyV1 ⟨c, p, i, require, nonce.val, expiryNs⟩ =
      .ok (SetDeviceApprovalPolicyV1.encode ⟨c, p, encodeText i, require, nonce, expiryNs⟩) := by
  rw [encodeSetDeviceApprovalPolicyV1, assertFixed_nonce]
  simp only [concatBytes, varField_eq, encodeText_literal, u64le_nat, List.flatten_cons,
    List.flatten_nil, List.append_nil, Devices.transcriptProtocol, Devices.actionSetDeviceApprovalPolicy,
    SetDeviceApprovalPolicyV1.encode, transcriptHead, transcriptTail, List.append_assoc]
  rfl

end Transcripts

/-! ### Scalars -/

def p256Order : Nat := 0xffffffff00000000ffffffffffffffffbce6faada7179e84f3b9cac2fc632551

def bytesToBigInt (bytes : Bytes) : Nat := bytes.foldl (fun n b => n <<< 8 ||| b.toNat) 0

/-- The low bytes of the number, from the last to the first. -/
def bigIntToBytes (n : Int) : Nat → Bytes
  | 0 => []
  | width + 1 => bigIntToBytes (n >>> (8 : Nat)) width ++ [UInt8.ofNat (n % 256).toNat]

def normalizeLowS (signature : Bytes) : Except DeviceError Bytes :=
  if signature.length ≠ 64 then .error (.signatureLength signature.length)
  else
    let s := bytesToBigInt (signature.drop 32)
    if s ≤ p256Order / 2 then .ok signature
    else .ok (signature.take 32 ++ bigIntToBytes ((p256Order : Int) - s) 32)

theorem bytesToBigInt_eq (bytes : Bytes) : bytesToBigInt bytes = Bytes.ofBe bytes := by
  have hloop : ∀ n, bytes.foldl (fun n b => n <<< 8 ||| b.toNat) n =
      n * 256 ^ bytes.length + Bytes.ofBe bytes := by
    induction bytes with
    | nil => intro n; simp [Bytes.ofBe, Bytes.ofLe]
    | cons b bs ih =>
      intro n
      have hb : b.toNat < 2 ^ 8 := b.toNat_lt
      rw [List.foldl_cons, ih, Bytes.ofBe_cons, List.length_cons, ← Nat.shiftLeft_add_eq_or_of_lt hb,
        Nat.shiftLeft_eq]
      ring
  rw [bytesToBigInt, hloop, Nat.zero_mul, Nat.zero_add]

theorem bigIntToBytes_nat (n width : Nat) : bigIntToBytes n width = Bytes.toBe width n := by
  induction width generalizing n with
  | zero => rfl
  | succ width ih =>
    have hshift : ((n : Int) >>> (8 : Nat)) = ((n / 256 : Nat) : Int) := by
      rw [Int.shiftRight_eq_div_pow]
      rfl
    have hlow : UInt8.ofNat ((n : Int) % 256).toNat = UInt8.ofNat n := by
      apply UInt8.toNat_inj.1
      rw [UInt8.toNat_ofNat', UInt8.toNat_ofNat']
      omega
    rw [bigIntToBytes, hshift, ih, hlow, Bytes.toBe, Bytes.toBe, Bytes.toLe, List.reverse_cons]

/-! ### Signatures -/

/-- The two scalars of a signature. -/
def scalarR (signature : Bytes) : Nat := Bytes.ofBe (signature.take 32)

def scalarS (signature : Bytes) : Nat := Bytes.ofBe (signature.drop 32)

section Signatures
variable {G : Type} [AddCommGroup G] (C : Ecdsa.Curve p256Order G) (sha256 : Bytes → Bytes)

/-- `signature` is one of the message by the key. -/
def Signed (key : G) (message signature : Bytes) : Prop :=
  signature.length = 64 ∧
    C.Verifies key (Bytes.ofBe (sha256 message)) (scalarR signature) (scalarS signature)

/-- The signature that has the lower of the two scalars. -/
def lowS (signature : Bytes) : Bytes :=
  if scalarS signature ≤ p256Order / 2 then signature
  else signature.take 32 ++ Bytes.toBe 32 (p256Order - scalarS signature)

variable {C sha256} {signature : Bytes}

theorem scalars_mirror (hlength : signature.length = 64) {s : Nat} (hs : s < 256 ^ 32) :
    (signature.take 32 ++ Bytes.toBe 32 s).length = 64 ∧
      scalarR (signature.take 32 ++ Bytes.toBe 32 s) = scalarR signature ∧
      scalarS (signature.take 32 ++ Bytes.toBe 32 s) = s := by
  have htake : (signature.take 32).length = 32 := by
    rw [List.length_take, hlength]
    rfl
  refine ⟨?_, ?_, ?_⟩
  · rw [List.length_append, htake, Bytes.length_toBe]
  · rw [scalarR, List.take_left' htake, scalarR]
  · rw [scalarS, List.drop_left' htake, Bytes.ofBe_toBe hs]

theorem normalizeLowS_ok (hlength : signature.length = 64) (hs : scalarS signature < p256Order) :
    normalizeLowS signature = .ok (lowS signature) := by
  have hbytes : bytesToBigInt (signature.drop 32) = scalarS signature := bytesToBigInt_eq _
  unfold normalizeLowS lowS
  rw [if_neg (not_not.2 hlength)]
  simp only [hbytes]
  by_cases hlow : scalarS signature ≤ p256Order / 2
  · rw [if_pos hlow, if_pos hlow]
  · have hsub : (p256Order : Int) - scalarS signature =
        ((p256Order - scalarS signature : Nat) : Int) := by omega
    rw [if_neg hlow, if_neg hlow, hsub, bigIntToBytes_nat]

/-- What becomes of the scalars. -/
theorem scalars_lowS (hlength : signature.length = 64) (hpos : 0 < scalarS signature)
    (hs : scalarS signature < p256Order) :
    (lowS signature).length = 64 ∧ scalarR (lowS signature) = scalarR signature ∧
      scalarS (lowS signature) ≤ p256Order / 2 ∧
      (scalarS (lowS signature) = scalarS signature ∨
        scalarS (lowS signature) = p256Order - scalarS signature) := by
  unfold lowS
  by_cases hlow : scalarS signature ≤ p256Order / 2
  · rw [if_pos hlow]
    exact ⟨hlength, rfl, hlow, .inl rfl⟩
  · have hwidth : p256Order < 256 ^ 32 := by decide
    obtain ⟨hlength', hr, hmirror⟩ := scalars_mirror hlength
      (show p256Order - scalarS signature < 256 ^ 32 by omega)
    rw [if_neg hlow]
    exact ⟨hlength', hr, by omega, .inr hmirror⟩

/-- The lower of the two scalars is a signature of the same messages by the same keys. -/
theorem signed_lowS (hlength : signature.length = 64) (hpos : 0 < scalarS signature)
    (hs : scalarS signature < p256Order) (key : G) (message : Bytes) :
    Signed C sha256 key message (lowS signature) ↔ Signed C sha256 key message signature := by
  obtain ⟨hlength', hr, -, hsame | hmirror⟩ := scalars_lowS hlength hpos hs
  · rw [Signed, Signed, hlength', hlength, hr, hsame]
  · rw [Signed, Signed, hlength', hlength, hr, hmirror, C.verifies_mirror hs]

end Signatures

section Claims
variable {G : Type} [AddCommGroup G] (C : Ecdsa.Curve p256Order G) (sha256 : Bytes → Bytes)

/-- The wallet's transcripts are the canister's, those of the five operations can be told apart,
and a signature is given by the lower of its scalars, as a signature of what it was one of. -/
theorem signs_same_bytes :
    ((∀ (c p : PrincipalBytes) (i d : JsString) (nonce : Nonce16) (expiryNs : Nat),
        (∀ e s w : Hash32,
          encodeApprovalV1 ⟨c, p, i, d, e.val, s.val, w.val, nonce.val, expiryNs⟩ =
            .ok (ApprovalV1.encode ⟨c, p, encodeText i, encodeText d, e, s, w, nonce, expiryNs⟩)) ∧
        encodeRevokeV1 ⟨c, p, i, d, nonce.val, expiryNs⟩ =
          .ok (RevokeV1.encode ⟨c, p, encodeText i, encodeText d, nonce, expiryNs⟩) ∧
        (∀ old new : Hash32, encodeReplaceV1 ⟨c, p, d, old.val, new.val, nonce.val, expiryNs⟩ =
          .ok (ReplaceV1.encode ⟨c, p, encodeText d, old, new, nonce, expiryNs⟩)) ∧
        ∀ require : Bool,
          encodeSetDeviceApprovalPolicyV1 ⟨c, p, i, require, nonce.val, expiryNs⟩ =
            .ok (SetDeviceApprovalPolicyV1.encode ⟨c, p, encodeText i, require, nonce, expiryNs⟩)) ∧
      ∀ text : String, encodeText (literal text) = Token.tag text) ∧
    (∀ t t' : Transcript, t.Fits → t'.Fits → t.encode = t'.encode → t = t') ∧
    (∀ (key : G) (message signature : Bytes), Signed C sha256 key message signature →
      ∃ low, normalizeLowS signature = .ok low ∧ normalizeLowS low = .ok low ∧
        scalarR low = scalarR signature ∧ scalarS low ≤ p256Order / 2 ∧
        (scalarS low = scalarS signature ∨ scalarS low = p256Order - scalarS signature) ∧
        ∀ (key' : G) (message' : Bytes),
          Signed C sha256 key' message' low ↔ Signed C sha256 key' message' signature) ∧
    ∀ (key : G) (message message' signature signature' : Bytes),
      Signed C sha256 key message signature → Signed C sha256 key message' signature' →
        ¬Signed C sha256 key message signature' →
          normalizeLowS signature ≠ normalizeLowS signature' := by
  refine ⟨⟨fun c p i d nonce expiryNs => ⟨encodeApprovalV1_eq c p i d nonce expiryNs,
    encodeRevokeV1_eq c p i d nonce expiryNs, encodeReplaceV1_eq c p d nonce expiryNs,
    encodeSetDeviceApprovalPolicyV1_eq c p i nonce expiryNs⟩, encodeText_literal⟩,
    fun _ _ => Transcript.encode_inj, ?_, ?_⟩
  · intro key message signature hsigned
    obtain ⟨hlength, -, ⟨hpos, hs⟩, -⟩ := id hsigned
    obtain ⟨hlength', hr, hlow, hwhich⟩ := scalars_lowS hlength hpos hs
    have htwice : lowS (lowS signature) = lowS signature := if_pos hlow
    have hs' : scalarS (lowS signature) < p256Order := Nat.lt_of_le_of_lt hlow (by decide)
    refine ⟨lowS signature, normalizeLowS_ok hlength hs, ?_, hr, hlow, hwhich,
      signed_lowS hlength hpos hs⟩
    rw [normalizeLowS_ok hlength' hs', htwice]
  · intro key message message' signature signature' hsigned hsigned' hnot heq
    obtain ⟨hlength, -, ⟨hpos, hs⟩, -⟩ := id hsigned
    obtain ⟨hlength', -, ⟨hpos', hs'⟩, -⟩ := id hsigned'
    rw [normalizeLowS_ok hlength hs, normalizeLowS_ok hlength' hs'] at heq
    have hlow : lowS signature = lowS signature' := Except.ok.inj heq
    apply hnot
    rw [← signed_lowS hlength' hpos' hs', ← hlow]
    exact (signed_lowS hlength hpos hs key message).2 hsigned

end Claims

/-- The abscissa of P-256's base point. -/
def p256BaseX : Nat := 0x6b17d1f2e12c4247f8bce6e563a440f277037d812deb33a0f4a13945d898c296

/-- A signature by the key `1` with the nonce `1`, its scalar `s` the greatest there is. -/
def highSignature : Bytes := Bytes.toBe 32 p256BaseX ++ Bytes.toBe 32 (p256Order - 1)

theorem highSignature_scalars :
    scalarR highSignature = p256BaseX ∧ scalarS highSignature = p256Order - 1 := by
  constructor
  · rw [scalarR, highSignature, List.take_left' (Bytes.length_toBe ..), Bytes.ofBe_toBe (by decide)]
  · rw [scalarS, highSignature, List.drop_left' (Bytes.length_toBe ..), Bytes.ofBe_toBe (by decide)]

theorem highSignature_signed (message : Bytes) :
    Signed (Ecdsa.ofLog p256Order p256BaseX)
      (fun _ => Bytes.toBe 32 (p256Order - 1 - p256BaseX)) 1 message highSignature := by
  obtain ⟨hr, hs⟩ := highSignature_scalars
  refine ⟨by decide, ?_⟩
  rw [hr, hs, Bytes.ofBe_toBe (by decide)]
  exact Ecdsa.ofLog_verifies (by decide)

theorem signs_same_bytes_base :
    ∃ low, normalizeLowS highSignature = .ok low ∧ scalarR low = p256BaseX ∧ scalarS low = 1 := by
  have hsigned := highSignature_signed []
  obtain ⟨hr, hs⟩ := highSignature_scalars
  obtain ⟨low, hlow, -, hr', hhalf, hwhich, -⟩ :=
    (signs_same_bytes (Ecdsa.ofLog p256Order p256BaseX) _).2.2.1 1 [] highSignature hsigned
  refine ⟨low, hlow, hr'.trans hr, ?_⟩
  have hbig : p256Order / 2 < p256Order - 1 := by decide
  have hone : p256Order - (p256Order - 1) = 1 := by decide
  rw [hs, hone] at hwhich
  rcases hwhich with hsame | hone
  · omega
  · exact hone

end StshProtocol.Wallet
