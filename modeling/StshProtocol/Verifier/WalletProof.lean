import StshProtocol.Verifier.Parse

/-! The wallet's encoding of a proof.

The prover returns a proof as JSON: decimal strings for the coordinates, and the constant third
coordinates of points that are not at infinity. The wallet checks this shape and that every
coordinate is below the modulus of the base field, and writes the 256 bytes that the verifier
parses. -/
namespace StshProtocol.Verifier
open Foundation ShieldedPool

/-! ### The shape -/

/-- A value of which nothing is known; `other` is whatever is neither text nor an object. -/
inductive JsValue where
  | undefined
  | null
  | string (s : String)
  | array (items : List JsValue)
  | object (fields : List (String × JsValue))
  | other

/-- A property of an object; an array has none of the names asked for here. -/
def JsValue.get (v : JsValue) (name : String) : JsValue :=
  match v with
  | .object fields => (fields.lookup name).getD .undefined
  | _ => .undefined

def JsValue.isObject : JsValue → Bool
  | .object _ | .array _ => true
  | _ => false

inductive ProofError where
  | notAnObject
  | unsupportedProtocol
  | unsupportedCurve
  | notThreeDecimals (name : String)
  | notProjective (name constant : String)
  | notThreePairs
  | pairNotProjective (c0 c1 : String)
  | notADecimalString (label : String)
  | notCanonical (label : String)
  deriving DecidableEq, Repr

def isDecimalString (s : String) : Bool :=
  decide (s.toList ≠ []) && s.toList.all fun c => decide ('0' ≤ c ∧ c ≤ '9')

structure SnarkjsGroth16Proof where
  piA : String × String × String
  piB : (String × String) × (String × String) × (String × String)
  piC : String × String × String

/-- A point of the first curve: three decimal strings, the last one "1". -/
def assertG1 (name : String) (v : JsValue) : Except ProofError (String × String × String) :=
  match v with
  | .array [.string x, .string y, .string z] =>
    if ¬(isDecimalString x ∧ isDecimalString y ∧ isDecimalString z) then .error (.notThreeDecimals name)
    else if z ≠ "1" then .error (.notProjective name z)
    else .ok (x, y, z)
  | _ => .error (.notThreeDecimals name)

def assertPair (v : JsValue) : Except ProofError (String × String) :=
  match v with
  | .array [.string c0, .string c1] =>
    if isDecimalString c0 ∧ isDecimalString c1 then .ok (c0, c1) else .error .notThreePairs
  | _ => .error .notThreePairs

/-- A point of the second curve: three pairs of decimal strings, the last one "1" and "0". -/
def assertG2 (v : JsValue) :
    Except ProofError ((String × String) × (String × String) × (String × String)) :=
  match v with
  | .array [b0, b1, b2] => do
    let x ← assertPair b0
    let y ← assertPair b1
    let z ← assertPair b2
    if z.1 ≠ "1" ∨ z.2 ≠ "0" then .error (.pairNotProjective z.1 z.2) else .ok (x, y, z)
  | _ => .error .notThreePairs

/-- The value is this text. -/
def JsValue.Is (v : JsValue) (s : String) : Bool :=
  match v with
  | .string t => t == s
  | _ => false

def assertSnarkjsProofShape (proof : JsValue) : Except ProofError SnarkjsGroth16Proof :=
  if ¬proof.isObject then .error .notAnObject
  else if ¬(proof.get "protocol").Is "groth16" then .error .unsupportedProtocol
  else if ¬(proof.get "curve").Is "bn128" ∧ ¬(proof.get "curve").Is "bn254" then
    .error .unsupportedCurve
  else do
    let piA ← assertG1 "pi_a" (proof.get "pi_a")
    let piC ← assertG1 "pi_c" (proof.get "pi_c")
    let piB ← assertG2 (proof.get "pi_b")
    return ⟨piA, piB, piC⟩

/-! ### The bytes -/

/-- The integer that decimal digits write. -/
def bigInt (s : String) : Nat :=
  s.toList.foldl (fun n c => 10 * n + (c.toNat - '0'.toNat)) 0

def fqToLe32 (decimal label : String) : Except ProofError Bytes :=
  if ¬isDecimalString decimal then .error (.notADecimalString label)
  else if fqModulus ≤ bigInt decimal then .error (.notCanonical label)
  else .ok (Bytes.toLe 32 (bigInt decimal))

/-- A buffer with some bytes written over it from an offset on. -/
def setBytes (out bytes : Bytes) (offset : Nat) : Bytes :=
  out.take offset ++ bytes ++ out.drop (offset + bytes.length)

def groth16ProofBytes : Nat := 256

def encodeGroth16Proof (proof : JsValue) : Except ProofError Bytes := do
  let p ← assertSnarkjsProofShape proof
  let out := List.replicate groth16ProofBytes 0
  let out := setBytes out (← fqToLe32 p.piA.1 "pi_a.x") 0
  let out := setBytes out (← fqToLe32 p.piA.2.1 "pi_a.y") 32
  let out := setBytes out (← fqToLe32 p.piB.1.1 "pi_b.x.c0") 64
  let out := setBytes out (← fqToLe32 p.piB.1.2 "pi_b.x.c1") 96
  let out := setBytes out (← fqToLe32 p.piB.2.1.1 "pi_b.y.c0") 128
  let out := setBytes out (← fqToLe32 p.piB.2.1.2 "pi_b.y.c1") 160
  let out := setBytes out (← fqToLe32 p.piC.1 "pi_c.x") 192
  let out := setBytes out (← fqToLe32 p.piC.2.1 "pi_c.y") 224
  return out

/-! ### What is written -/

/-- Bytes written right behind what has been written. -/
theorem setBytes_behind {front bytes : Bytes} {n : Nat} :
    setBytes (front ++ List.replicate n 0) bytes front.length =
      (front ++ bytes) ++ List.replicate (n - bytes.length) 0 := by
  rw [setBytes, List.take_left, ← List.drop_drop, List.drop_left, List.drop_replicate]

/-- One coordinate more. -/
theorem setBytes_next {front bytes : Bytes} {i n : Nat} (hfront : front.length = i)
    (hbytes : bytes.length = 32) :
    setBytes (front ++ List.replicate (32 + n) 0) bytes i = (front ++ bytes) ++ List.replicate n 0 := by
  rw [← hfront, setBytes_behind, hbytes, Nat.add_sub_cancel_left]

theorem setBytes_all {b0 b1 b2 b3 b4 b5 b6 b7 : Bytes}
    (h : ∀ b ∈ [b0, b1, b2, b3, b4, b5, b6, b7], b.length = 32) :
    setBytes (setBytes (setBytes (setBytes (setBytes (setBytes (setBytes (setBytes
      (List.replicate groth16ProofBytes 0) b0 0) b1 32) b2 64) b3 96) b4 128) b5 160) b6 192) b7 224 =
        b0 ++ b1 ++ b2 ++ b3 ++ b4 ++ b5 ++ b6 ++ b7 := by
  simp only [List.forall_mem_cons, List.not_mem_nil, false_implies, implies_true, and_true] at h
  obtain ⟨h0, h1, h2, h3, h4, h5, h6, h7⟩ := h
  have s0 : setBytes (List.replicate groth16ProofBytes 0) b0 0 = b0 ++ List.replicate 224 0 :=
    @setBytes_next [] b0 0 224 rfl h0
  have s1 := @setBytes_next b0 b1 32 192 h0 h1
  have s2 := @setBytes_next (b0 ++ b1) b2 64 160 (by rw [List.length_append, h0, h1]) h2
  have s3 := @setBytes_next (b0 ++ b1 ++ b2) b3 96 128 (by simp only [List.length_append, h0, h1, h2]) h3
  have s4 := @setBytes_next (b0 ++ b1 ++ b2 ++ b3) b4 128 96
    (by simp only [List.length_append, h0, h1, h2, h3]) h4
  have s5 := @setBytes_next (b0 ++ b1 ++ b2 ++ b3 ++ b4) b5 160 64
    (by simp only [List.length_append, h0, h1, h2, h3, h4]) h5
  have s6 := @setBytes_next (b0 ++ b1 ++ b2 ++ b3 ++ b4 ++ b5) b6 192 32
    (by simp only [List.length_append, h0, h1, h2, h3, h4, h5]) h6
  have s7 := @setBytes_next (b0 ++ b1 ++ b2 ++ b3 ++ b4 ++ b5 ++ b6) b7 224 0
    (by simp only [List.length_append, h0, h1, h2, h3, h4, h5, h6]) h7
  rw [s0, s1, s2, s3, s4, s5, s6, s7, List.replicate_zero, List.append_nil]

theorem fqToLe32_ok {decimal label : String} {bytes : Bytes} (h : fqToLe32 decimal label = .ok bytes) :
    bytes = Bytes.toLe 32 (bigInt decimal) ∧ bigInt decimal < fqModulus := by
  unfold fqToLe32 at h
  split_ifs at h with hdecimal hlarge
  cases h
  exact ⟨rfl, Nat.lt_of_not_le hlarge⟩

variable {E : Pairing}

/-- The proof's points have these coordinates. -/
structure CoordinatesOf (p : SnarkjsGroth16Proof) (proof : Proof E) : Prop where
  ax : E.fq.intoBigint proof.a.x = bigInt p.piA.1
  ay : E.fq.intoBigint proof.a.y = bigInt p.piA.2.1
  bx0 : E.fq.intoBigint proof.b.x.1 = bigInt p.piB.1.1
  bx1 : E.fq.intoBigint proof.b.x.2 = bigInt p.piB.1.2
  by0 : E.fq.intoBigint proof.b.y.1 = bigInt p.piB.2.1.1
  by1 : E.fq.intoBigint proof.b.y.2 = bigInt p.piB.2.1.2
  cx : E.fq.intoBigint proof.c.x = bigInt p.piC.1
  cy : E.fq.intoBigint proof.c.y = bigInt p.piC.2.1

/-- None of the points is at infinity. -/
def Proof.Finite (proof : Proof E) : Prop :=
  proof.a.infinity = false ∧ proof.b.infinity = false ∧ proof.c.infinity = false

/-- The element of an integer below the modulus. -/
theorem PrimeField.exists_intoBigint {modulus : Nat} (F : PrimeField modulus) (hm : modulus ≤ 256 ^ 32)
    {n : Nat} (h : n < modulus) : ∃ x, F.intoBigint x = n := by
  refine ⟨F.fromLeBytesModOrder (Bytes.toLe 32 n), ?_⟩
  rw [F.intoBigint_from, Bytes.ofLe_toLe, Nat.mod_eq_of_lt (Nat.lt_of_lt_of_le h hm), Nat.mod_eq_of_lt h]

/-- What the wallet writes is the encoding of the proof with the coordinates it read, and there is
such a proof. -/
theorem encodeGroth16Proof_ok {v : JsValue} {bytes : Bytes} (h : encodeGroth16Proof v = .ok bytes) :
    ∃ p, assertSnarkjsProofShape v = .ok p ∧
      (∃ proof : Proof E, CoordinatesOf p proof ∧ proof.Finite) ∧
      ∀ proof : Proof E, CoordinatesOf p proof → encodeProof E proof = bytes := by
  unfold encodeGroth16Proof at h
  simp only [bind_eq_ok_iff] at h
  obtain ⟨p, hp, ax, hax, ay, hay, bx0, hbx0, bx1, hbx1, by0, hby0, by1, hby1, cx, hcx, cy, hcy, hset⟩ := h
  have helement : ∀ {decimal label : String} {bytes : Bytes}, fqToLe32 decimal label = .ok bytes →
      ∃ x, E.fq.intoBigint x = bigInt decimal := fun h =>
    E.fq.exists_intoBigint (by decide) (fqToLe32_ok h).2
  refine ⟨p, hp, ?_, fun proof hc => ?_⟩
  · obtain ⟨xa, hxa⟩ := helement hax
    obtain ⟨ya, hya⟩ := helement hay
    obtain ⟨xb0, hxb0⟩ := helement hbx0
    obtain ⟨xb1, hxb1⟩ := helement hbx1
    obtain ⟨yb0, hyb0⟩ := helement hby0
    obtain ⟨yb1, hyb1⟩ := helement hby1
    obtain ⟨xc, hxc⟩ := helement hcx
    obtain ⟨yc, hyc⟩ := helement hcy
    exact ⟨⟨⟨xa, ya, false⟩, ⟨(xb0, xb1), (yb0, yb1), false⟩, ⟨xc, yc, false⟩⟩,
      ⟨hxa, hya, hxb0, hxb1, hyb0, hyb1, hxc, hyc⟩, rfl, rfl, rfl⟩
  · have hbytes := Except.ok.inj hset
    rw [(fqToLe32_ok hax).1, (fqToLe32_ok hay).1, (fqToLe32_ok hbx0).1, (fqToLe32_ok hbx1).1,
      (fqToLe32_ok hby0).1, (fqToLe32_ok hby1).1, (fqToLe32_ok hcx).1, (fqToLe32_ok hcy).1,
      setBytes_all (by simp [Bytes.length_toLe])] at hbytes
    rw [← hbytes]
    simp only [encodeProof, encodeG1, encodeG2, encodeFq, hc.ax, hc.ay, hc.bx0, hc.bx1, hc.by0, hc.by1,
      hc.cx, hc.cy, List.append_assoc]

/-! ### The encodings are canonical -/

/-- The encodings of signals and proofs, for any fields and curves. -/
structure EncodingsCanonical (E : Pairing) : Prop where
  /-- The comparison of bytes is that of the integers they write. -/
  fr : ∀ bytes : Bytes, bytes.length = 32 →
    (MerkleTree.isCanonicalFrLe bytes = true ↔ Bytes.ofLe bytes < NullifierRegistry.frModulus)
  fq : ∀ bytes : Bytes, bytes.length = 32 →
    (isCanonicalFqLe bytes = true ↔ Bytes.ofLe bytes < fqModulus)
  /-- What is accepted is the encoding of what it is decoded to, -/
  signals : ∀ signals out, parsePublicInputs E signals = .ok out →
    encodePublicInputs E out = signals.signals
  proofs : ∀ bytes proof, parseProofBytes E bytes = .ok proof → encodeProof E proof = bytes
  /-- so that two that are decoded to the same are the same. -/
  signals_inj : ∀ signals signals' out, parsePublicInputs E signals = .ok out →
    parsePublicInputs E signals' = .ok out → signals.signals = signals'.signals
  proofs_inj : ∀ bytes bytes' proof, parseProofBytes E bytes = .ok proof →
    parseProofBytes E bytes' = .ok proof → bytes = bytes'
  /-- The proof with the coordinates the wallet read, if its points are valid, is what the verifier
  parses from what the wallet wrote. -/
  wallet : ∀ v bytes, encodeGroth16Proof v = .ok bytes →
    ∃ p, assertSnarkjsProofShape v = .ok p ∧
      (∃ proof : Proof E, CoordinatesOf p proof ∧ proof.Finite) ∧
      ∀ proof : Proof E, CoordinatesOf p proof →
        E.g1.Valid proof.a → E.g2.Valid proof.b → E.g1.Valid proof.c →
          parseProofBytes E bytes = .ok proof

theorem encodings_canonical (E : Pairing) : EncodingsCanonical E := by
  have hsignals : ∀ signals out, parsePublicInputs E signals = .ok out →
      encodePublicInputs E out = signals.signals := fun signals out h =>
    (parseSignals_iff 0 signals.wide).1 h
  have hproofs : ∀ bytes proof, parseProofBytes E bytes = .ok proof → encodeProof E proof = bytes :=
    fun bytes proof h => (parseProofBytes_iff.1 h).2
  refine ⟨fun _ => NullifierRegistry.isCanonicalFrLe_iff, fun _ => isCanonicalFqLe_iff, hsignals, hproofs,
    fun s s' out h h' => ?_, fun b b' proof h h' => ?_, fun v bytes h => ?_⟩
  · exact (hsignals s out h).symm.trans (hsignals s' out h')
  · exact (hproofs b proof h).symm.trans (hproofs b' proof h')
  · obtain ⟨p, hp, hexists, hencode⟩ := encodeGroth16Proof_ok (E := E) h
    exact ⟨p, hp, hexists, fun proof hc ha hb hcv =>
      parseProofBytes_iff.2 ⟨⟨ha, hb, hcv⟩, hencode proof hc⟩⟩

/-- Points by their equation over the residues, with no check of the second curve. -/
def samplePairing : Pairing where
  fr := .residues NullifierRegistry.frModulus (by decide)
  fq := .residues fqModulus (by decide)
  g1 := ⟨fun p => decide ((p.y.val * p.y.val) % fqModulus =
    (p.x.val * p.x.val * p.x.val + 3) % fqModulus), fun _ => true⟩
  g2 := ⟨fun _ => true, fun _ => true⟩

def sampleProof : JsValue :=
  .object [("protocol", .string "groth16"), ("curve", .string "bn128"),
    ("pi_a", .array [.string "1", .string "2", .string "1"]),
    ("pi_b", .array [.array [.string "5", .string "6"], .array [.string "7", .string "8"],
      .array [.string "1", .string "0"]]),
    ("pi_c", .array [.string "1", .string "2", .string "1"])]

example : ((encodeGroth16Proof sampleProof).toOption.bind fun bytes =>
    ((parseProofBytes samplePairing bytes).toOption.map fun proof =>
      (proof.a.y.val, proof.b.x.1.val, proof.b.x.2.val, proof.c.x.val))) = some (2, 5, 6, 1) := by
  decide +kernel

end StshProtocol.Verifier
