import StshProtocol.NullifierRegistry.Runs

/-! The verifier's encodings.

A public signal is 32 bytes, and a proof 256: three points of the curve by their coordinates, each
coordinate 32 bytes, little-endian. The field's own conversion would reduce any integer, so the bytes
are first required to be below the modulus. What is then accepted is the one encoding of what it is
decoded to. -/
namespace StshProtocol.Verifier
open Foundation ShieldedPool

/-! ### Canonical bytes -/

/-- The modulus of the BN254 base field, little-endian. -/
def fqModulusLe : Bytes :=
  [0x47, 0xfd, 0x7c, 0xd8, 0x16, 0x8c, 0x20, 0x3c, 0x8d, 0xca, 0x71, 0x68, 0x91, 0x6a, 0x81, 0x97,
   0x5d, 0x58, 0x81, 0x81, 0xb6, 0x45, 0x50, 0xb8, 0x29, 0xa0, 0x31, 0xe1, 0x72, 0x4e, 0x64, 0x30]

def isCanonicalFqLe (bytes : Bytes) : Bool := MerkleTree.leLt bytes.reverse fqModulusLe.reverse

/-- The modulus of the BN254 base field. -/
def fqModulus : Nat :=
  21888242871839275222246405745257275088696311157297823662689037894645226208583

theorem isCanonicalFqLe_iff {bytes : Bytes} (h : bytes.length = 32) :
    isCanonicalFqLe bytes = true ↔ Bytes.ofLe bytes < fqModulus := by
  have hmodulus : Bytes.ofBe fqModulusLe.reverse = fqModulus := by decide
  rw [isCanonicalFqLe, NullifierRegistry.leLt_iff (by rw [List.length_reverse, h]; rfl), hmodulus,
    Bytes.ofBe, List.reverse_reverse]

/-! ### Fields and curves -/

/-- A prime field as the library offers it: bytes are reduced to an element, which has one integer
below the modulus. -/
structure PrimeField (modulus : Nat) where
  Elem : Type
  fromLeBytesModOrder : Bytes → Elem
  intoBigint : Elem → Nat
  intoBigint_lt : ∀ x, intoBigint x < modulus
  intoBigint_from : ∀ bytes, intoBigint (fromLeBytesModOrder bytes) = Bytes.ofLe bytes % modulus
  intoBigint_inj : ∀ {x y}, intoBigint x = intoBigint y → x = y

/-- The integers below the modulus. -/
def PrimeField.residues (modulus : Nat) (h : 0 < modulus) : PrimeField modulus where
  Elem := Fin modulus
  fromLeBytesModOrder bytes := ⟨Bytes.ofLe bytes % modulus, Nat.mod_lt _ h⟩
  intoBigint x := x.val
  intoBigint_lt x := x.isLt
  intoBigint_from _ := rfl
  intoBigint_inj h := Fin.ext h

structure Affine (F : Type) where
  x : F
  y : F
  infinity : Bool

def Affine.newUnchecked {F : Type} (x y : F) : Affine F := ⟨x, y, false⟩

/-- What the library decides of a point. -/
structure CurveChecks (F : Type) where
  isOnCurve : Affine F → Bool
  isInCorrectSubgroupAssumingOnCurve : Affine F → Bool

/-- The fields and the curves of a pairing; the second curve is over pairs of base elements. -/
structure Pairing where
  fr : PrimeField NullifierRegistry.frModulus
  fq : PrimeField fqModulus
  g1 : CurveChecks fq.Elem
  g2 : CurveChecks (fq.Elem × fq.Elem)

abbrev Pairing.G1 (E : Pairing) : Type := Affine E.fq.Elem

abbrev Pairing.G2 (E : Pairing) : Type := Affine (E.fq.Elem × E.fq.Elem)

structure Proof (E : Pairing) where
  a : E.G1
  b : E.G2
  c : E.G1

/-! ### Parsing -/

inductive VerifierError where
  | parseError (message : String)
  | verificationFailed
  deriving DecidableEq, Repr

/-- A point that is on the curve and in its subgroup, `group` naming it in an error. -/
def CurveChecks.checked {F : Type} (C : CurveChecks F) (group : String) (x y : F) (label : String) :
    Except VerifierError (Affine F) :=
  let p := Affine.newUnchecked x y
  if ¬C.isOnCurve p then .error (.parseError s!"{label}: point not on BN254 {group}")
  else if ¬C.isInCorrectSubgroupAssumingOnCurve p then
    .error (.parseError s!"{label}: {group} point not in prime-order subgroup")
  else .ok p

section Parse
variable (E : Pairing)

def g1Checked (x y : E.fq.Elem) (label : String) : Except VerifierError E.G1 :=
  E.g1.checked "G1" x y label

def g2Checked (x y : E.fq.Elem × E.fq.Elem) (label : String) : Except VerifierError E.G2 :=
  E.g2.checked "G2" x y label

/-- The bytes from one place to another. -/
def slice (start stop : Nat) (bytes : Bytes) : Bytes := (bytes.take stop).drop start

def parseG1Bytes (bytes : Bytes) (label : String) : Except VerifierError E.G1 :=
  if bytes.length < 64 then
    .error (.parseError s!"{label}: G1 bytes too short ({bytes.length})")
  else
    let xBytes := slice 0 32 bytes
    let yBytes := slice 32 64 bytes
    if ¬isCanonicalFqLe xBytes then
      .error (.parseError s!"{label}: non-canonical Fq x-coordinate (value >= BN254 Fq modulus)")
    else if ¬isCanonicalFqLe yBytes then
      .error (.parseError s!"{label}: non-canonical Fq y-coordinate (value >= BN254 Fq modulus)")
    else
      g1Checked E (E.fq.fromLeBytesModOrder xBytes) (E.fq.fromLeBytesModOrder yBytes) label

/-- The first coordinate whose bytes are not canonical is the error. -/
def checkCoordinates (label : String) : List (Bytes × String) → Except VerifierError Unit
  | [] => .ok ()
  | (bytes, name) :: rest =>
    if ¬isCanonicalFqLe bytes then
      .error (.parseError s!"{label}: non-canonical Fq {name} (value >= BN254 Fq modulus)")
    else checkCoordinates label rest

def parseG2Bytes (bytes : Bytes) (label : String) : Except VerifierError E.G2 :=
  if bytes.length < 128 then
    .error (.parseError s!"{label}: G2 bytes too short ({bytes.length})")
  else do
    let xc0Bytes := slice 0 32 bytes
    let xc1Bytes := slice 32 64 bytes
    let yc0Bytes := slice 64 96 bytes
    let yc1Bytes := slice 96 128 bytes
    checkCoordinates label
      [(xc0Bytes, "x_c0"), (xc1Bytes, "x_c1"), (yc0Bytes, "y_c0"), (yc1Bytes, "y_c1")]
    let element := E.fq.fromLeBytesModOrder
    g2Checked E (element xc0Bytes, element xc1Bytes) (element yc0Bytes, element yc1Bytes) label

def parseProofBytes (proofBytes : Bytes) : Except VerifierError (Proof E) :=
  if proofBytes.length ≠ 256 then
    .error (.parseError s!"proof_bytes: expected 256 bytes, got {proofBytes.length}")
  else do
    let a ← parseG1Bytes E (slice 0 64 proofBytes) "pi_a"
    let b ← parseG2Bytes E (slice 64 192 proofBytes) "pi_b"
    let c ← parseG1Bytes E (slice 192 256 proofBytes) "pi_c"
    return ⟨a, b, c⟩

/-- The signals from the `i`-th on. -/
def parseSignals (i : Nat) : List Bytes → Except VerifierError (List E.fr.Elem)
  | [] => .ok []
  | s :: rest =>
    if ¬MerkleTree.isCanonicalFrLe s then
      .error (.parseError s!"signal[{i}]: non-canonical Fr bytes (value >= BN254 Fr modulus)")
    else do
      let out ← parseSignals (i + 1) rest
      return E.fr.fromLeBytesModOrder s :: out

/-- Nine signals of 32 bytes. -/
structure PublicSignals where
  signals : List Bytes
  nine : signals.length = 9
  wide : ∀ s ∈ signals, s.length = 32

def parsePublicInputs (signals : PublicSignals) : Except VerifierError (List E.fr.Elem) :=
  parseSignals E 0 signals.signals

/-! ### Encoding -/

def encodeFq (x : E.fq.Elem) : Bytes := Bytes.toLe 32 (E.fq.intoBigint x)

def encodeG1 (p : E.G1) : Bytes := encodeFq E p.x ++ encodeFq E p.y

def encodeG2 (p : E.G2) : Bytes :=
  encodeFq E p.x.1 ++ encodeFq E p.x.2 ++ encodeFq E p.y.1 ++ encodeFq E p.y.2

def encodeProof (p : Proof E) : Bytes := encodeG1 E p.a ++ encodeG2 E p.b ++ encodeG1 E p.c

def encodePublicInputs (inputs : List E.fr.Elem) : List Bytes :=
  inputs.map fun x => Bytes.toLe 32 (E.fr.intoBigint x)

end Parse

/-! ### What is accepted -/

/-- The bytes are below the modulus and reduced to the element just if they are its encoding. -/
theorem PrimeField.encode_iff {modulus : Nat} (F : PrimeField modulus) (hm : modulus ≤ 256 ^ 32)
    {bytes : Bytes} (h : bytes.length = 32) {x : F.Elem} :
    Bytes.toLe 32 (F.intoBigint x) = bytes ↔
      Bytes.ofLe bytes < modulus ∧ F.fromLeBytesModOrder bytes = x := by
  constructor
  · rintro rfl
    have hx : Bytes.ofLe (Bytes.toLe 32 (F.intoBigint x)) = F.intoBigint x := by
      rw [Bytes.ofLe_toLe, Nat.mod_eq_of_lt (Nat.lt_of_lt_of_le (F.intoBigint_lt x) hm)]
    refine ⟨hx.symm ▸ F.intoBigint_lt x, F.intoBigint_inj ?_⟩
    rw [F.intoBigint_from, hx, Nat.mod_eq_of_lt (F.intoBigint_lt x)]
  · rintro ⟨hlt, rfl⟩
    rw [F.intoBigint_from, Nat.mod_eq_of_lt hlt, ← h, Bytes.toLe_ofLe]

/-- A point of the subgroup, other than the one at infinity. -/
structure CurveChecks.Valid {F : Type} (C : CurveChecks F) (p : Affine F) : Prop where
  onCurve : C.isOnCurve p = true
  inSubgroup : C.isInCorrectSubgroupAssumingOnCurve p = true
  finite : p.infinity = false

theorem CurveChecks.checked_iff {F : Type} {C : CurveChecks F} {group label : String} {x y : F}
    {p : Affine F} : C.checked group x y label = .ok p ↔ C.Valid p ∧ p.x = x ∧ p.y = y := by
  unfold CurveChecks.checked
  simp only
  constructor
  · intro h
    split_ifs at h with hcurve hsubgroup
    cases h
    exact ⟨⟨hcurve, hsubgroup, rfl⟩, rfl, rfl⟩
  · rintro ⟨⟨hcurve, hsubgroup, hfinite⟩, rfl, rfl⟩
    obtain ⟨x, y, infinity⟩ := p
    cases hfinite
    rw [Affine.newUnchecked, if_neg (not_not_intro hcurve), if_neg (not_not_intro hsubgroup)]

/-- A first part of this length is what the bytes begin with. -/
theorem append_eq_iff {front rest bs : Bytes} {n : Nat} (h : front.length = n) (hn : n ≤ bs.length) :
    front ++ rest = bs ↔ front = bs.take n ∧ rest = bs.drop n := by
  constructor
  · rintro rfl
    exact ⟨(List.take_left' h).symm, (List.drop_left' h).symm⟩
  · rintro ⟨rfl, rfl⟩
    exact List.take_append_drop n bs

theorem length_slice {start stop : Nat} {bs : Bytes} (h : stop ≤ bs.length) :
    (slice start stop bs).length = stop - start := by
  rw [slice, List.length_drop, List.length_take_of_le h]

section Accepted
variable {E : Pairing} {bytes : Bytes} {label : String}

theorem length_encodeFq (x : E.fq.Elem) : (encodeFq E x).length = 32 := Bytes.length_toLe 32 _

theorem encodeFq_iff (h : bytes.length = 32) {x : E.fq.Elem} :
    encodeFq E x = bytes ↔ isCanonicalFqLe bytes = true ∧ E.fq.fromLeBytesModOrder bytes = x := by
  rw [encodeFq, E.fq.encode_iff (by decide) h, isCanonicalFqLe_iff h]

theorem encodeG1_iff (h : bytes.length = 64) {p : E.G1} :
    encodeG1 E p = bytes ↔ encodeFq E p.x = slice 0 32 bytes ∧ encodeFq E p.y = slice 32 64 bytes := by
  rw [encodeG1, append_eq_iff (length_encodeFq p.x) (by omega), slice, slice,
    List.take_of_length_le (Nat.le_of_eq h), List.drop_zero]

theorem parseG1Bytes_iff (h : bytes.length = 64) {p : E.G1} :
    parseG1Bytes E bytes label = .ok p ↔ E.g1.Valid p ∧ encodeG1 E p = bytes := by
  rw [encodeG1_iff h, encodeFq_iff (length_slice (by omega)), encodeFq_iff (length_slice (by omega)),
    parseG1Bytes, if_neg (by omega)]
  simp only
  by_cases hx : isCanonicalFqLe (slice 0 32 bytes) = true
  · rw [if_neg (not_not_intro hx)]
    by_cases hy : isCanonicalFqLe (slice 32 64 bytes) = true
    · rw [if_neg (not_not_intro hy), g1Checked, CurveChecks.checked_iff]
      exact and_congr_right fun _ => ⟨fun hp => ⟨⟨hx, hp.1.symm⟩, hy, hp.2.symm⟩,
        fun hp => ⟨hp.1.2.symm, hp.2.2.symm⟩⟩
    · rw [if_pos hy]
      exact ⟨nofun, fun hp => absurd hp.2.2.1 hy⟩
  · rw [if_pos hx]
    exact ⟨nofun, fun hp => absurd hp.2.1.1 hx⟩

theorem checkCoordinates_iff {coordinates : List (Bytes × String)} {u : Unit} :
    checkCoordinates label coordinates = .ok u ↔ ∀ c ∈ coordinates, isCanonicalFqLe c.1 = true := by
  induction coordinates with
  | nil => exact ⟨fun _ => nofun, fun _ => rfl⟩
  | cons c rest ih =>
    obtain ⟨bytes, name⟩ := c
    rw [checkCoordinates, List.forall_mem_cons]
    by_cases hc : isCanonicalFqLe bytes = true
    · rw [if_neg (not_not_intro hc), ih]
      exact ⟨fun h => ⟨hc, h⟩, And.right⟩
    · rw [if_pos hc]
      exact ⟨nofun, fun h => absurd h.1 hc⟩

theorem encodeG2_iff (h : bytes.length = 128) {p : E.G2} : encodeG2 E p = bytes ↔
    encodeFq E p.x.1 = slice 0 32 bytes ∧ encodeFq E p.x.2 = slice 32 64 bytes ∧
      encodeFq E p.y.1 = slice 64 96 bytes ∧ encodeFq E p.y.2 = slice 96 128 bytes := by
  have hdrop : ∀ n, (bytes.drop n).length = 128 - n := fun n => h ▸ List.length_drop
  rw [encodeG2, List.append_assoc, List.append_assoc, append_eq_iff (length_encodeFq p.x.1) (by omega),
    append_eq_iff (length_encodeFq p.x.2) (by rw [hdrop]; decide), List.drop_drop,
    append_eq_iff (length_encodeFq p.y.1) (by rw [hdrop]; decide), List.drop_drop]
  simp only [slice, List.drop_take, List.drop_zero]
  rw [List.take_of_length_le (Nat.le_of_eq (hdrop 96))]

theorem parseG2Bytes_iff (h : bytes.length = 128) {p : E.G2} :
    parseG2Bytes E bytes label = .ok p ↔ E.g2.Valid p ∧ encodeG2 E p = bytes := by
  have hwide : ∀ i, i + 32 ≤ 128 → (slice i (i + 32) bytes).length = 32 := fun i hi => by
    rw [length_slice (by omega)]
    omega
  rw [encodeG2_iff h, encodeFq_iff (hwide 0 (by decide)), encodeFq_iff (hwide 32 (by decide)),
    encodeFq_iff (hwide 64 (by decide)), encodeFq_iff (hwide 96 (by decide)), parseG2Bytes,
    if_neg (by omega), bind_eq_ok_iff]
  simp only [g2Checked, CurveChecks.checked_iff, checkCoordinates_iff, List.forall_mem_cons]
  obtain ⟨⟨x0, x1⟩, ⟨y0, y1⟩, infinity⟩ := p
  simp only [Prod.mk.injEq]
  constructor
  · rintro ⟨-, ⟨hx0, hx1, hy0, hy1, -⟩, hvalid, ⟨rfl, rfl⟩, rfl, rfl⟩
    exact ⟨hvalid, ⟨hx0, rfl⟩, ⟨hx1, rfl⟩, ⟨hy0, rfl⟩, hy1, rfl⟩
  · rintro ⟨hvalid, ⟨hx0, rfl⟩, ⟨hx1, rfl⟩, ⟨hy0, rfl⟩, hy1, rfl⟩
    exact ⟨(), ⟨hx0, hx1, hy0, hy1, nofun⟩, hvalid, ⟨rfl, rfl⟩, rfl, rfl⟩

theorem length_encodeG1 (p : E.G1) : (encodeG1 E p).length = 64 := by
  rw [encodeG1, List.length_append, length_encodeFq, length_encodeFq]

theorem length_encodeG2 (p : E.G2) : (encodeG2 E p).length = 128 := by
  simp only [encodeG2, List.length_append, length_encodeFq]

theorem length_encodeProof (p : Proof E) : (encodeProof E p).length = 256 := by
  simp only [encodeProof, List.length_append, length_encodeG1, length_encodeG2]

theorem encodeProof_iff (h : bytes.length = 256) {p : Proof E} : encodeProof E p = bytes ↔
    encodeG1 E p.a = slice 0 64 bytes ∧ encodeG2 E p.b = slice 64 192 bytes ∧
      encodeG1 E p.c = slice 192 256 bytes := by
  rw [encodeProof, List.append_assoc, append_eq_iff (length_encodeG1 p.a) (by omega),
    append_eq_iff (length_encodeG2 p.b) (by rw [List.length_drop]; omega), List.drop_drop]
  simp only [slice, List.drop_take, List.drop_zero]
  rw [@List.take_of_length_le _ (256 - 192) (bytes.drop 192) (Nat.le_of_eq (by rw [List.length_drop, h]))]

/-- The bytes that are accepted are the encodings of the valid proofs, each to its own. -/
theorem parseProofBytes_iff {p : Proof E} : parseProofBytes E bytes = .ok p ↔
    (E.g1.Valid p.a ∧ E.g2.Valid p.b ∧ E.g1.Valid p.c) ∧ encodeProof E p = bytes := by
  by_cases h : bytes.length = 256
  · have hwide : ∀ {i j}, j ≤ 256 → (slice i j bytes).length = j - i := fun hj =>
      length_slice (h ▸ hj)
    rw [encodeProof_iff h, parseProofBytes, if_neg (not_not_intro h)]
    simp only [bind_eq_ok_iff, @parseG1Bytes_iff E (slice 0 64 bytes) _ (hwide (by decide)),
      @parseG2Bytes_iff E (slice 64 192 bytes) _ (hwide (by decide)),
      @parseG1Bytes_iff E (slice 192 256 bytes) _ (hwide (by decide))]
    constructor
    · rintro ⟨a, ⟨ha, hab⟩, b, ⟨hb, hbb⟩, c, ⟨hc, hcb⟩, ⟨⟩⟩
      exact ⟨⟨ha, hb, hc⟩, hab, hbb, hcb⟩
    · rintro ⟨⟨ha, hb, hc⟩, hab, hbb, hcb⟩
      exact ⟨p.a, ⟨ha, hab⟩, p.b, ⟨hb, hbb⟩, p.c, ⟨hc, hcb⟩, rfl⟩
  · rw [parseProofBytes, if_pos h]
    refine ⟨nofun, ?_⟩
    rintro ⟨-, rfl⟩
    exact absurd (length_encodeProof p) h

/-- Signals are accepted if every one is the encoding of what it is decoded to. -/
theorem parseSignals_iff {signals : List Bytes} {out : List E.fr.Elem} (i : Nat)
    (hwide : ∀ s ∈ signals, s.length = 32) :
    parseSignals E i signals = .ok out ↔ encodePublicInputs E out = signals := by
  induction signals generalizing out i with
  | nil =>
    rw [parseSignals, encodePublicInputs, List.map_eq_nil_iff, Except.ok.injEq]
    exact eq_comm
  | cons s rest ih =>
    have hs := hwide s List.mem_cons_self
    have hfirst : ∀ x, Bytes.toLe 32 (E.fr.intoBigint x) = s ↔
        MerkleTree.isCanonicalFrLe s = true ∧ E.fr.fromLeBytesModOrder s = x := fun x => by
      rw [E.fr.encode_iff (by decide) hs, NullifierRegistry.isCanonicalFrLe_iff hs]
    rw [parseSignals, encodePublicInputs, List.map_eq_cons_iff]
    by_cases hc : MerkleTree.isCanonicalFrLe s = true
    · rw [if_neg (not_not_intro hc)]
      simp only [bind_eq_ok_iff, ih (i + 1) fun s' hs' => hwide s' (List.mem_cons_of_mem s hs'), hfirst]
      constructor
      · rintro ⟨xs, hxs, ⟨⟩⟩
        exact ⟨_, xs, rfl, ⟨hc, rfl⟩, hxs⟩
      · rintro ⟨x, xs, rfl, ⟨-, rfl⟩, hxs⟩
        exact ⟨xs, hxs, rfl⟩
    · rw [if_pos hc]
      refine ⟨nofun, ?_⟩
      rintro ⟨x, xs, -, hx, -⟩
      exact absurd ((hfirst x).1 hx).1 hc

end Accepted

end StshProtocol.Verifier
