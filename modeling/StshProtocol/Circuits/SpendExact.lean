import StshProtocol.Circuits.Circomlib
import StshProtocol.Foundation.BinaryTree

/-! The spend circuit, template by template.

A template is the relation its constraints leave between its signals. Poseidon is a function of the
list of its inputs, so that its arity is the list's length. Of an array only the entries below its
length are read. -/
namespace StshProtocol.Circuits

def commitmentDomain : Fr := 3

def merkleLeafDomain : Fr := 4

def nullifierDomain : Fr := 2

def pkDomain : Fr := 1

def maxNoteValue : Nat := 1000000000000000

/-! ### The deployment -/

def domainPoolCanisterId : Fr :=
  4523128485832663883733241601901871400518358776001584537546685574107874983936

def domainAssetId : Fr := 0

def domainCircuitVersion : Fr := 3

def domainNetworkId : Fr := 1

section
variable (poseidon : List Fr → Fr)

/-! ### The templates -/

/-- One level of the path: the selector is a bit, and the pair it switches is hashed. -/
def MerkleLevel (pathIndex current pathElement next : Fr) : Prop :=
  pathIndex * (1 - pathIndex) = 0 ∧
    ∃ outL outR, Switcher pathIndex current pathElement outL outR ∧ next = poseidon [outL, outR]

def MerkleProof (depth : Nat) (leaf : Fr) (pathElements pathIndices : Nat → Fr) (root : Fr) : Prop :=
  ∃ levels : Nat → Fr, levels 0 = leaf ∧
    (∀ i < depth, MerkleLevel poseidon (pathIndices i) (levels i) (pathElements i) (levels (i + 1))) ∧
      root = levels depth

def NoteCommitment (domainSep value recipientPk rho rseed commitment : Fr) : Prop :=
  commitment = poseidon [domainSep, value, recipientPk, rho, rseed, commitmentDomain]

def MerkleLeaf (value innerNoteCommitment leaf : Fr) : Prop :=
  leaf = poseidon [value, innerNoteCommitment, merkleLeafDomain]

def NullifierDerivation (domainSep spendKey inCommitment nullifier : Fr) : Prop :=
  nullifier = poseidon [domainSep, spendKey, inCommitment, nullifierDomain]

/-- The two checks of one value: its own bits, and that it is below the bound plus one. -/
structure ValueRange (value out : Fr) : Prop where
  bits : ∃ bits, Num2Bits 50 value bits
  lessThan : LessThan 50 value (maxNoteValue + 1 : Nat) out
  isOne : out = 1

/-- The inputs of `STSHSpend`, the nine public ones first. -/
structure SpendInputs where
  anchor : Fr
  nullifierHash : Fr
  outputMerkleLeaf1 : Fr
  outputMerkleLeaf2 : Fr
  publicAmount : Fr
  fee : Fr
  recipientPrincipal : Fr
  recipientSubaccountLo : Fr
  recipientSubaccountHi : Fr
  spendKey : Fr
  inValue : Fr
  inRho : Fr
  inRseed : Fr
  pathElements : Nat → Fr
  pathIndices : Nat → Fr
  outValue1 : Fr
  outRecipientPk1 : Fr
  outRho1 : Fr
  outRseed1 : Fr
  outValue2 : Fr
  outRecipientPk2 : Fr
  outRho2 : Fr
  outRseed2 : Fr

/-- The signals between its components. -/
structure SpendWires where
  domainHash : Fr
  pkDeriver : Fr
  inCommit : Fr
  nf : Fr
  inLeaf : Fr
  merkleRoot : Fr
  outCommit1 : Fr
  outLeaf1 : Fr
  outCommit2 : Fr
  outLeaf2 : Fr
  rpBind : Fr
  rslBind : Fr
  rshBind : Fr
  inValueRange : Fr
  outValue1Range : Fr
  outValue2Range : Fr
  feeRange : Fr
  pubAmountRange : Fr

structure STSHSpend (treeDepth : Nat) (x : SpendInputs) (w : SpendWires) : Prop where
  domainHash : w.domainHash =
    poseidon [domainPoolCanisterId, domainAssetId, domainCircuitVersion, domainNetworkId]
  pkDeriver : w.pkDeriver = poseidon [x.spendKey, pkDomain]
  inCommit : NoteCommitment poseidon w.domainHash x.inValue w.pkDeriver x.inRho x.inRseed w.inCommit
  nf : NullifierDerivation poseidon w.domainHash x.spendKey w.inCommit w.nf
  nullifierHash : x.nullifierHash = w.nf
  inLeaf : MerkleLeaf poseidon x.inValue w.inCommit w.inLeaf
  merkle : MerkleProof poseidon treeDepth w.inLeaf x.pathElements x.pathIndices w.merkleRoot
  anchor : x.anchor = w.merkleRoot
  outCommit1 : NoteCommitment poseidon w.domainHash x.outValue1 x.outRecipientPk1 x.outRho1 x.outRseed1
    w.outCommit1
  outLeaf1 : MerkleLeaf poseidon x.outValue1 w.outCommit1 w.outLeaf1
  outputMerkleLeaf1 : x.outputMerkleLeaf1 = w.outLeaf1
  outCommit2 : NoteCommitment poseidon w.domainHash x.outValue2 x.outRecipientPk2 x.outRho2 x.outRseed2
    w.outCommit2
  outLeaf2 : MerkleLeaf poseidon x.outValue2 w.outCommit2 w.outLeaf2
  outputMerkleLeaf2 : x.outputMerkleLeaf2 = w.outLeaf2
  rpBind : w.rpBind = x.recipientPrincipal * x.recipientPrincipal
  rslBind : w.rslBind = x.recipientSubaccountLo * x.recipientSubaccountLo
  rshBind : w.rshBind = x.recipientSubaccountHi * x.recipientSubaccountHi
  inValueRange : ValueRange x.inValue w.inValueRange
  outValue1Range : ValueRange x.outValue1 w.outValue1Range
  outValue2Range : ValueRange x.outValue2 w.outValue2Range
  feeRange : ValueRange x.fee w.feeRange
  pubAmountRange : ValueRange x.publicAmount w.pubAmountRange
  balance : x.inValue = x.outValue1 + x.outValue2 + x.fee + x.publicAmount

end

/-- The depth of the main component. -/
def treeDepth : Nat := 32

end StshProtocol.Circuits

/-! What the spend circuit proves.

Its assignments are those of `SpendRelation`, a statement about integers, notes and a path of
hashes, with no signal between: it holds of every satisfying assignment and extends to one. That the
path leads to the leaf of a tree, and that a nullifier belongs to one note, needs the hash to keep
apart the inputs it is applied to there (`CollisionFree`); nothing is asked of it elsewhere. -/
namespace StshProtocol.Circuits
open Foundation

section
variable (poseidon : List Fr → Fr)

/-! ### Notes -/

def domainSep : Fr :=
  poseidon [domainPoolCanisterId, domainAssetId, domainCircuitVersion, domainNetworkId]

def spendPk (spendKey : Fr) : Fr := poseidon [spendKey, pkDomain]

def noteCommitment (value recipientPk rho rseed : Fr) : Fr :=
  poseidon [domainSep poseidon, value, recipientPk, rho, rseed, commitmentDomain]

def noteLeaf (value recipientPk rho rseed : Fr) : Fr :=
  poseidon [value, noteCommitment poseidon value recipientPk rho rseed, merkleLeafDomain]

def noteNullifier (spendKey value rho rseed : Fr) : Fr :=
  poseidon [domainSep poseidon, spendKey,
    noteCommitment poseidon value (spendPk poseidon spendKey) rho rseed, nullifierDomain]

/-- The leaf of the note that is spent. -/
def SpendInputs.inLeaf (x : SpendInputs) : Fr :=
  noteLeaf poseidon x.inValue (spendPk poseidon x.spendKey) x.inRho x.inRseed

/-! ### Paths -/

/-- The pair at one level: the node on its side, the sibling on the other. -/
def children (sel current sibling : Fr) : List Fr :=
  if sel = 1 then [sibling, current] else [current, sibling]

/-- The nodes on the way up from a leaf. -/
def climb (leaf : Fr) (elements indices : Nat → Fr) : Nat → Fr
  | 0 => leaf
  | l + 1 => poseidon (children (indices l) (climb leaf elements indices l) (elements l))

/-- A node of the tree over a row of leaves. -/
def treeNode (leaves : Nat → Fr) (level i : Nat) : Fr :=
  Foundation.BinaryTree.node (fun a b => poseidon [a, b]) leaves level i

/-- The root of a tree of the circuit's depth. -/
def treeRoot (leaves : Nat → Fr) : Fr := treeNode poseidon leaves treeDepth 0

/-- The position the selectors spell, the lowest bit first. -/
def SpendInputs.position (x : SpendInputs) : Nat :=
  Nat.ofBits fun i : Fin treeDepth => decide (x.pathIndices i = 1)

/-- What is hashed on the way up the path. -/
def SpendInputs.pathHashed (x : SpendInputs) : List (List Fr) :=
  (List.range treeDepth).map fun l =>
    children (x.pathIndices l) (climb poseidon (x.inLeaf poseidon) x.pathElements x.pathIndices l)
      (x.pathElements l)

/-- What is hashed in a tree above a position. -/
def treeHashed (leaves : Nat → Fr) (position : Nat) : List (List Fr) :=
  (List.range treeDepth).map fun l =>
    [treeNode poseidon leaves l (2 * (position / 2 ^ (l + 1))),
      treeNode poseidon leaves l (2 * (position / 2 ^ (l + 1)) + 1)]

/-- What is hashed to derive the nullifier. -/
def SpendInputs.noteHashed (x : SpendInputs) : List (List Fr) :=
  [[x.spendKey, pkDomain],
    [domainSep poseidon, x.inValue, spendPk poseidon x.spendKey, x.inRho, x.inRseed, commitmentDomain],
    [domainSep poseidon, x.spendKey,
      noteCommitment poseidon x.inValue (spendPk poseidon x.spendKey) x.inRho x.inRseed,
      nullifierDomain]]

/-- The hash keeps these inputs apart, those of one arity and those of two. -/
def CollisionFree (inputs : List (List Fr)) : Prop :=
  ∀ a ∈ inputs, ∀ b ∈ inputs, poseidon a = poseidon b → a = b

/-! ### The relation -/

/-- A signal is the residue of an amount within the bound. -/
def IsAmount (signal : Fr) (amount : Nat) : Prop := signal = amount ∧ amount ≤ maxNoteValue

/-- The amounts of the signals, which balance. -/
structure Balanced (x : SpendInputs) (inValue outValue1 outValue2 fee publicAmount : Nat) : Prop where
  spent : IsAmount x.inValue inValue
  first : IsAmount x.outValue1 outValue1
  second : IsAmount x.outValue2 outValue2
  charged : IsAmount x.fee fee
  paid : IsAmount x.publicAmount publicAmount
  balance : inValue = outValue1 + outValue2 + fee + publicAmount

structure SpendRelation (x : SpendInputs) : Prop where
  amounts : ∃ inValue outValue1 outValue2 fee publicAmount,
    Balanced x inValue outValue1 outValue2 fee publicAmount
  pathBits : ∀ i < treeDepth, x.pathIndices i = 0 ∨ x.pathIndices i = 1
  anchor : x.anchor = climb poseidon (x.inLeaf poseidon) x.pathElements x.pathIndices treeDepth
  nullifierHash : x.nullifierHash = noteNullifier poseidon x.spendKey x.inValue x.inRho x.inRseed
  outputMerkleLeaf1 : x.outputMerkleLeaf1 =
    noteLeaf poseidon x.outValue1 x.outRecipientPk1 x.outRho1 x.outRseed1
  outputMerkleLeaf2 : x.outputMerkleLeaf2 =
    noteLeaf poseidon x.outValue2 x.outRecipientPk2 x.outRho2 x.outRseed2

end

section
variable {poseidon : List Fr → Fr} {x y : SpendInputs} {w : SpendWires} {value out : Fr} {v : Nat}
  {leaf root : Fr} {elements indices : Nat → Fr} {leaves : Nat → Fr}

/-! ### Ranges -/

theorem maxNoteValue_lt : maxNoteValue + 1 < 2 ^ 50 := by decide

theorem ValueRange.amount (h : ValueRange value out) : ∃ v ≤ maxNoteValue, value = (v : Nat) := by
  obtain ⟨bits, hbits⟩ := h.bits
  obtain ⟨v, hv, rfl⟩ := hbits.small
  have hlt := h.lessThan
  rw [h.isOne, lessThan_iff (by decide) hv (Nat.le_of_lt maxNoteValue_lt)] at hlt
  exact ⟨v, Nat.lt_succ_iff.1 hlt, rfl⟩

theorem valueRange_of_le (h : v ≤ maxNoteValue) : ValueRange (v : Nat) 1 := by
  have hv : v < 2 ^ 50 := by
    have := maxNoteValue_lt
    omega
  refine ⟨⟨_, num2Bits_bitsOf hv⟩, ?_, rfl⟩
  exact (lessThan_iff (by decide) hv (Nat.le_of_lt maxNoteValue_lt)).2 (Nat.lt_succ_of_le h)

/-! ### One level, and the path -/

theorem merkleLevel_iff {sel current sibling next : Fr} :
    MerkleLevel poseidon sel current sibling next ↔
      (sel = 0 ∨ sel = 1) ∧ next = poseidon (children sel current sibling) := by
  constructor
  · rintro ⟨hsel, outL, outR, hswitch, hnext⟩
    rcases zero_or_one hsel with rfl | rfl
    · obtain ⟨rfl, rfl⟩ := switcher_zero.1 hswitch
      exact ⟨.inl rfl, by rw [hnext, children, if_neg zero_ne_one]⟩
    · obtain ⟨rfl, rfl⟩ := switcher_one.1 hswitch
      exact ⟨.inr rfl, by rw [hnext, children, if_pos rfl]⟩
  · rintro ⟨rfl | rfl, hnext⟩
    · rw [children, if_neg zero_ne_one] at hnext
      exact ⟨by ring, _, _, switcher_zero.2 ⟨rfl, rfl⟩, hnext⟩
    · rw [children, if_pos rfl] at hnext
      exact ⟨by ring, _, _, switcher_one.2 ⟨rfl, rfl⟩, hnext⟩

/-- A path proof is a climb by bits. -/
theorem merkleProof_iff {depth : Nat} :
    MerkleProof poseidon depth leaf elements indices root ↔
      (∀ i < depth, indices i = 0 ∨ indices i = 1) ∧
        root = climb poseidon leaf elements indices depth := by
  constructor
  · rintro ⟨levels, hleaf, hlevels, hroot⟩
    refine ⟨fun i hi => (merkleLevel_iff.1 (hlevels i hi)).1, ?_⟩
    have hclimb : ∀ l ≤ depth, levels l = climb poseidon leaf elements indices l := by
      intro l
      induction l with
      | zero => exact fun _ => hleaf
      | succ l ih =>
        intro hl
        rw [climb, ← ih (Nat.le_of_succ_le hl)]
        exact (merkleLevel_iff.1 (hlevels l hl)).2
    rw [hroot, hclimb depth (Nat.le_refl depth)]
  · rintro ⟨hbits, hroot⟩
    exact ⟨climb poseidon leaf elements indices, rfl,
      fun i hi => merkleLevel_iff.2 ⟨hbits i hi, rfl⟩, hroot⟩

/-! ### The relation, and the constraints -/

theorem relation_of_satisfied (h : STSHSpend poseidon treeDepth x w) : SpendRelation poseidon x := by
  obtain ⟨inValue, hin, hxin⟩ := h.inValueRange.amount
  obtain ⟨outValue1, hout1, hxout1⟩ := h.outValue1Range.amount
  obtain ⟨outValue2, hout2, hxout2⟩ := h.outValue2Range.amount
  obtain ⟨fee, hfee, hxfee⟩ := h.feeRange.amount
  obtain ⟨publicAmount, hpub, hxpub⟩ := h.pubAmountRange.amount
  -- Four amounts within the bound do not come near the modulus, so the balance is one of integers.
  have hbalance : inValue = outValue1 + outValue2 + fee + publicAmount := by
    have hp := two_pow_lt_modulus
    have hmax := maxNoteValue_lt
    refine cast_inj_of_lt (by omega) (by omega) ?_
    rw [← hxin, h.balance, hxout1, hxout2, hxfee, hxpub]
    push_cast
    rfl
  have hdomain : w.domainHash = domainSep poseidon := h.domainHash
  have hcommit := h.inCommit
  have hcommit1 := h.outCommit1
  have hcommit2 := h.outCommit2
  have hnf := h.nf
  have hleaf := h.inLeaf
  have hleaf1 := h.outLeaf1
  have hleaf2 := h.outLeaf2
  rw [NoteCommitment, hdomain] at hcommit hcommit1 hcommit2
  rw [NullifierDerivation, hdomain, hcommit, h.pkDeriver] at hnf
  rw [MerkleLeaf, hcommit, h.pkDeriver] at hleaf
  rw [MerkleLeaf, hcommit1] at hleaf1
  rw [MerkleLeaf, hcommit2] at hleaf2
  have hmerkle := h.merkle
  rw [hleaf, merkleProof_iff] at hmerkle
  exact {
    amounts := ⟨inValue, outValue1, outValue2, fee, publicAmount, ⟨hxin, hin⟩, ⟨hxout1, hout1⟩,
      ⟨hxout2, hout2⟩, ⟨hxfee, hfee⟩, ⟨hxpub, hpub⟩, hbalance⟩
    pathBits := hmerkle.1
    anchor := h.anchor.trans hmerkle.2
    nullifierHash := h.nullifierHash.trans hnf
    outputMerkleLeaf1 := h.outputMerkleLeaf1.trans hleaf1
    outputMerkleLeaf2 := h.outputMerkleLeaf2.trans hleaf2 }

/-- The signals between, as the components compute them. -/
def SpendInputs.wires (poseidon : List Fr → Fr) (x : SpendInputs) : SpendWires where
  domainHash := domainSep poseidon
  pkDeriver := spendPk poseidon x.spendKey
  inCommit := noteCommitment poseidon x.inValue (spendPk poseidon x.spendKey) x.inRho x.inRseed
  nf := noteNullifier poseidon x.spendKey x.inValue x.inRho x.inRseed
  inLeaf := x.inLeaf poseidon
  merkleRoot := climb poseidon (x.inLeaf poseidon) x.pathElements x.pathIndices treeDepth
  outCommit1 := noteCommitment poseidon x.outValue1 x.outRecipientPk1 x.outRho1 x.outRseed1
  outLeaf1 := noteLeaf poseidon x.outValue1 x.outRecipientPk1 x.outRho1 x.outRseed1
  outCommit2 := noteCommitment poseidon x.outValue2 x.outRecipientPk2 x.outRho2 x.outRseed2
  outLeaf2 := noteLeaf poseidon x.outValue2 x.outRecipientPk2 x.outRho2 x.outRseed2
  rpBind := x.recipientPrincipal * x.recipientPrincipal
  rslBind := x.recipientSubaccountLo * x.recipientSubaccountLo
  rshBind := x.recipientSubaccountHi * x.recipientSubaccountHi
  inValueRange := 1
  outValue1Range := 1
  outValue2Range := 1
  feeRange := 1
  pubAmountRange := 1

theorem satisfied_of_relation (h : SpendRelation poseidon x) :
    STSHSpend poseidon treeDepth x (x.wires poseidon) := by
  obtain ⟨inValue, outValue1, outValue2, fee, publicAmount, ⟨hxin, hin⟩, ⟨hxout1, hout1⟩,
    ⟨hxout2, hout2⟩, ⟨hxfee, hfee⟩, ⟨hxpub, hpub⟩, hbalance⟩ := h.amounts
  exact {
    domainHash := rfl
    pkDeriver := rfl
    inCommit := rfl
    nf := rfl
    nullifierHash := h.nullifierHash
    inLeaf := rfl
    merkle := merkleProof_iff.2 ⟨h.pathBits, rfl⟩
    anchor := h.anchor
    outCommit1 := rfl
    outLeaf1 := rfl
    outputMerkleLeaf1 := h.outputMerkleLeaf1
    outCommit2 := rfl
    outLeaf2 := rfl
    outputMerkleLeaf2 := h.outputMerkleLeaf2
    rpBind := rfl
    rslBind := rfl
    rshBind := rfl
    inValueRange := hxin ▸ valueRange_of_le hin
    outValue1Range := hxout1 ▸ valueRange_of_le hout1
    outValue2Range := hxout2 ▸ valueRange_of_le hout2
    feeRange := hxfee ▸ valueRange_of_le hfee
    pubAmountRange := hxpub ▸ valueRange_of_le hpub
    balance := by
      rw [hxin, hxout1, hxout2, hxfee, hxpub, hbalance]
      push_cast
      rfl }

/-! ### Trees -/

theorem treeNode_succ (leaves : Nat → Fr) (l i : Nat) :
    treeNode poseidon leaves (l + 1) i =
      poseidon [treeNode poseidon leaves l (2 * i), treeNode poseidon leaves l (2 * i + 1)] := rfl

theorem position_lt (x : SpendInputs) : x.position < 2 ^ treeDepth := Nat.ofBits_lt_two_pow _

/-- The selector of a level is that bit of the position. -/
theorem position_bit (x : SpendInputs) {l : Nat} (hl : l < treeDepth) :
    x.position / 2 ^ l % 2 = if x.pathIndices l = 1 then 1 else 0 := by
  have h := Nat.testBit_ofBits_lt (fun i : Fin treeDepth => decide (x.pathIndices i = 1)) l hl
  rw [Nat.testBit_eq_decide_div_mod_eq] at h
  have hiff : x.position / 2 ^ l % 2 = 1 ↔ x.pathIndices l = 1 := decide_eq_decide.1 h
  by_cases hx : x.pathIndices l = 1
  · rw [if_pos hx, hiff.2 hx]
  · rw [if_neg hx]
    have : x.position / 2 ^ l % 2 ≠ 1 := fun heq => hx (hiff.1 heq)
    omega

/-- Two children, and the one at the position among them. -/
theorem current_of_children {sel current sibling a b : Fr} (h : children sel current sibling = [a, b]) :
    current = if sel = 1 then b else a := by
  rw [children] at h
  by_cases hsel : sel = 1
  · rw [if_pos hsel] at h ⊢
    injection h with _ h
    injection h
  · rw [if_neg hsel] at h ⊢
    injection h

/-- Down from the root, the climb passes the nodes of the tree above the position. -/
theorem climb_eq_node (htree : treeRoot poseidon leaves =
      climb poseidon (x.inLeaf poseidon) x.pathElements x.pathIndices treeDepth)
    (hfree : CollisionFree poseidon (x.pathHashed poseidon ++ treeHashed poseidon leaves x.position))
    (k : Nat) (hk : k ≤ treeDepth) :
    climb poseidon (x.inLeaf poseidon) x.pathElements x.pathIndices (treeDepth - k) =
      treeNode poseidon leaves (treeDepth - k) (x.position / 2 ^ (treeDepth - k)) := by
  induction k with
  | zero =>
    rw [Nat.sub_zero, Nat.div_eq_of_lt (position_lt x)]
    exact htree.symm
  | succ k ih =>
    obtain ⟨l, hl⟩ : ∃ l, treeDepth - k = l + 1 := ⟨treeDepth - k - 1, by omega⟩
    have hlt : l < treeDepth := by omega
    have hsub : treeDepth - (k + 1) = l := by omega
    have hup := ih (Nat.le_of_succ_le hk)
    rw [hl, climb, treeNode_succ] at hup
    rw [hsub]
    have hmem : ∀ {f : Nat → List Fr}, f l ∈ (List.range treeDepth).map f := fun {f} =>
      List.mem_map_of_mem (List.mem_range.2 hlt)
    have hpair := hfree _ (List.mem_append_left _ hmem) _ (List.mem_append_right _ hmem) hup
    rw [current_of_children hpair]
    have hbit := position_bit x hlt
    have hdiv : x.position / 2 ^ (l + 1) = x.position / 2 ^ l / 2 := by
      rw [pow_succ, Nat.div_div_eq_div_mul]
    by_cases hsel : x.pathIndices l = 1
    · rw [if_pos hsel] at hbit ⊢
      rw [show 2 * (x.position / 2 ^ (l + 1)) + 1 = x.position / 2 ^ l by omega]
    · rw [if_neg hsel] at hbit ⊢
      rw [show 2 * (x.position / 2 ^ (l + 1)) = x.position / 2 ^ l by omega]

/-- A climb to the root of a tree starts from the leaf at the position. -/
theorem leaf_of_climb (htree : treeRoot poseidon leaves =
      climb poseidon (x.inLeaf poseidon) x.pathElements x.pathIndices treeDepth)
    (hfree : CollisionFree poseidon (x.pathHashed poseidon ++ treeHashed poseidon leaves x.position)) :
    leaves x.position = x.inLeaf poseidon := by
  have h := climb_eq_node htree hfree treeDepth (Nat.le_refl _)
  rw [Nat.sub_self, pow_zero, Nat.div_one] at h
  exact h.symm

/-- The path of a position in a tree: the siblings on the way up, and the bits of the position. -/
structure TreePath (poseidon : List Fr → Fr) (leaves : Nat → Fr) (position : Nat)
    (elements indices : Nat → Fr) : Prop where
  lt : position < 2 ^ treeDepth
  elements : ∀ l < treeDepth, elements l = treeNode poseidon leaves l
    (if position / 2 ^ l % 2 = 0 then position / 2 ^ l + 1 else position / 2 ^ l - 1)
  indices : ∀ l < treeDepth, indices l = (position / 2 ^ l % 2 : Nat)

/-- On the path of a position, the climb from its leaf is the tree's nodes above it. -/
theorem TreePath.climb_node {position : Nat}
    (h : TreePath poseidon leaves position elements indices) (hleaf : leaves position = leaf)
    {l : Nat} (hl : l ≤ treeDepth) :
    climb poseidon leaf elements indices l = treeNode poseidon leaves l (position / 2 ^ l) ∧
      (l < treeDepth → children (indices l) (climb poseidon leaf elements indices l) (elements l) =
        [treeNode poseidon leaves l (2 * (position / 2 ^ (l + 1))),
          treeNode poseidon leaves l (2 * (position / 2 ^ (l + 1)) + 1)]) := by
  have hchildren : ∀ l < treeDepth,
      climb poseidon leaf elements indices l = treeNode poseidon leaves l (position / 2 ^ l) →
      children (indices l) (climb poseidon leaf elements indices l) (elements l) =
        [treeNode poseidon leaves l (2 * (position / 2 ^ (l + 1))),
          treeNode poseidon leaves l (2 * (position / 2 ^ (l + 1)) + 1)] := by
    intro l hl hclimb
    have hdiv : position / 2 ^ (l + 1) = position / 2 ^ l / 2 := by
      rw [pow_succ, Nat.div_div_eq_div_mul]
    rw [hclimb, h.elements l hl, h.indices l hl, hdiv]
    generalize position / 2 ^ l = i
    by_cases hbit : i % 2 = 0
    · rw [hbit, Nat.cast_zero, if_pos rfl, children, if_neg zero_ne_one,
        show 2 * (i / 2) = i by omega]
    · rw [if_neg hbit, show i % 2 = 1 by omega, Nat.cast_one, children, if_pos rfl,
        show 2 * (i / 2) + 1 = i by omega, show 2 * (i / 2) = i - 1 by omega]
  suffices hclimb : climb poseidon leaf elements indices l =
      treeNode poseidon leaves l (position / 2 ^ l) from ⟨hclimb, fun hlt => hchildren l hlt hclimb⟩
  induction l with
  | zero =>
    rw [pow_zero, Nat.div_one]
    exact hleaf.symm
  | succ l ih =>
    rw [climb, hchildren l hl (ih (Nat.le_of_succ_le hl)), treeNode_succ]

/-- The path of a position leads from its leaf to the root. -/
theorem TreePath.climb_root {position : Nat}
    (h : TreePath poseidon leaves position elements indices) (hleaf : leaves position = leaf) :
    climb poseidon leaf elements indices treeDepth = treeRoot poseidon leaves := by
  rw [(h.climb_node hleaf (Nat.le_refl _)).1, Nat.div_eq_of_lt h.lt]
  rfl

/-! ### Nullifiers -/

/-- A nullifier is of one note and one key. -/
theorem noteNullifier_inj
    (hfree : CollisionFree poseidon (x.noteHashed poseidon ++ y.noteHashed poseidon)) :
    noteNullifier poseidon x.spendKey x.inValue x.inRho x.inRseed =
        noteNullifier poseidon y.spendKey y.inValue y.inRho y.inRseed ↔
      x.spendKey = y.spendKey ∧ x.inValue = y.inValue ∧ x.inRho = y.inRho ∧ x.inRseed = y.inRseed := by
  constructor
  · intro h
    have hnf := hfree _ (by simp [SpendInputs.noteHashed]) _ (by simp [SpendInputs.noteHashed]) h
    injection hnf with _ hnf
    injection hnf with hkey hnf
    injection hnf with hcommit _
    have hnote := hfree _ (by simp [SpendInputs.noteHashed]) _ (by simp [SpendInputs.noteHashed]) hcommit
    injection hnote with _ hnote
    injection hnote with hvalue hnote
    injection hnote with _ hnote
    injection hnote with hrho hnote
    injection hnote with hrseed _
    exact ⟨hkey, hvalue, hrho, hrseed⟩
  · rintro ⟨hkey, hvalue, hrho, hrseed⟩
    rw [hkey, hvalue, hrho, hrseed]

end

/-! ### The circuit -/

/-- The circuit is satisfied exactly on its relation; on any tree with the anchor for its root the
note's leaf is at the position the selectors spell, and the path of such a position will do; two
spends have one nullifier exactly when they spend the same note. -/
theorem spend_circuit_exact (poseidon : List Fr → Fr) :
    (∀ x, (∃ w, STSHSpend poseidon treeDepth x w) ↔ SpendRelation poseidon x) ∧
    (∀ x w leaves, STSHSpend poseidon treeDepth x w → treeRoot poseidon leaves = x.anchor →
      CollisionFree poseidon (x.pathHashed poseidon ++ treeHashed poseidon leaves x.position) →
        leaves x.position = x.inLeaf poseidon) ∧
    (∀ (x : SpendInputs) leaves position, TreePath poseidon leaves position x.pathElements x.pathIndices →
      leaves position = x.inLeaf poseidon → climb poseidon (x.inLeaf poseidon) x.pathElements
        x.pathIndices treeDepth = treeRoot poseidon leaves) ∧
    ∀ x w y w', STSHSpend poseidon treeDepth x w → STSHSpend poseidon treeDepth y w' →
      CollisionFree poseidon (x.noteHashed poseidon ++ y.noteHashed poseidon) →
        (x.nullifierHash = y.nullifierHash ↔ x.spendKey = y.spendKey ∧ x.inValue = y.inValue ∧
          x.inRho = y.inRho ∧ x.inRseed = y.inRseed) := by
  refine ⟨fun x => ⟨fun ⟨_, h⟩ => relation_of_satisfied h, fun h => ⟨_, satisfied_of_relation h⟩⟩,
    fun x w leaves h hroot hfree => ?_, fun x leaves position hpath hleaf => hpath.climb_root hleaf,
    fun x w y w' h h' hfree => ?_⟩
  · exact leaf_of_climb (hroot.trans (relation_of_satisfied h).anchor) hfree
  · rw [(relation_of_satisfied h).nullifierHash, (relation_of_satisfied h').nullifierHash]
    exact noteNullifier_inj hfree

/-! ### A spend -/

/-- A hash for the sample: a number in base `1000003`, from the list's length on. -/
def sampleHash (inputs : List Fr) : Fr :=
  inputs.foldl (fun acc a => acc * 1000003 + a + 1) inputs.length

/-- The blank nodes of its tree. -/
def sampleBlank : Nat → Fr
  | 0 => 0
  | l + 1 => (fun b => sampleHash [b, b]) (sampleBlank l)

def sampleNoteLeaf : Fr := noteLeaf sampleHash 9 (spendPk sampleHash 11) 12 13

/-- A note of 9, the only one in its tree, spent on 4 and 2 with a fee of 1 and 2 paid out. -/
def sampleSpend : SpendInputs where
  anchor := climb sampleHash sampleNoteLeaf sampleBlank (fun _ => 0) treeDepth
  nullifierHash := noteNullifier sampleHash 11 9 12 13
  outputMerkleLeaf1 := noteLeaf sampleHash 4 21 22 23
  outputMerkleLeaf2 := noteLeaf sampleHash 2 31 32 33
  publicAmount := 2
  fee := 1
  recipientPrincipal := 41
  recipientSubaccountLo := 0
  recipientSubaccountHi := 0
  spendKey := 11
  inValue := 9
  inRho := 12
  inRseed := 13
  pathElements := sampleBlank
  pathIndices := fun _ => 0
  outValue1 := 4
  outRecipientPk1 := 21
  outRho1 := 22
  outRseed1 := 23
  outValue2 := 2
  outRecipientPk2 := 31
  outRho2 := 32
  outRseed2 := 33

theorem sampleSpend_relation : SpendRelation sampleHash sampleSpend where
  amounts := ⟨9, 4, 2, 1, 2, ⟨rfl, by decide⟩, ⟨rfl, by decide⟩, ⟨rfl, by decide⟩,
    ⟨Nat.cast_one.symm, by decide⟩, ⟨rfl, by decide⟩, by decide⟩
  pathBits _ _ := .inl rfl
  anchor := rfl
  nullifierHash := rfl
  outputMerkleLeaf1 := rfl
  outputMerkleLeaf2 := rfl

theorem sample_collisionFree :
    CollisionFree sampleHash (sampleSpend.pathHashed sampleHash) := by
  unfold CollisionFree
  decide +kernel

def sampleLeaves : Nat → Fr := Foundation.BinaryTree.row 0 [sampleNoteLeaf]

theorem sampleBlank_eq (l : Nat) :
    sampleBlank l = Foundation.BinaryTree.blank (fun a b => sampleHash [a, b]) 0 l := by
  induction l with
  | zero => rfl
  | succ l ih => rw [sampleBlank, Foundation.BinaryTree.blank, ih]

theorem sample_treePath : TreePath sampleHash sampleLeaves 0 sampleBlank fun _ => 0 where
  lt := Nat.two_pow_pos _
  elements l _ := by
    rw [Nat.zero_div, Nat.zero_mod, if_pos rfl, sampleBlank_eq]
    refine (Foundation.BinaryTree.node_row_blank ?_).symm
    rw [Nat.zero_add, Nat.one_mul]
    exact Nat.one_le_two_pow
  indices l _ := by
    rw [Nat.zero_div, Nat.zero_mod, Nat.cast_zero]

theorem sample_position : sampleSpend.position = 0 := by decide +kernel

/-- The sample satisfies the circuit, and its note is found in the tree. -/
theorem spend_circuit_sample : ∃ w, STSHSpend sampleHash treeDepth sampleSpend w ∧
    treeRoot sampleHash sampleLeaves = sampleSpend.anchor ∧
      sampleLeaves sampleSpend.position = sampleSpend.inLeaf sampleHash := by
  obtain ⟨hiff, hleaf, hpath, -⟩ := spend_circuit_exact sampleHash
  obtain ⟨w, hw⟩ := (hiff sampleSpend).2 sampleSpend_relation
  have hroot := hpath sampleSpend sampleLeaves 0 sample_treePath rfl
  refine ⟨w, hw, hroot.symm, hleaf sampleSpend w sampleLeaves hw hroot.symm ?_⟩
  have hsame : treeHashed sampleHash sampleLeaves sampleSpend.position =
      sampleSpend.pathHashed sampleHash := by
    rw [sample_position]
    refine List.map_congr_left fun l hl => ?_
    have hlt := List.mem_range.1 hl
    exact ((sample_treePath.climb_node rfl (Nat.le_of_lt hlt)).2 hlt).symm
  intro a ha b hb
  rw [hsame, List.mem_append, or_self] at ha hb
  exact sample_collisionFree a ha b hb

end StshProtocol.Circuits
