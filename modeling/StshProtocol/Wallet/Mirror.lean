import StshProtocol.Circuits.SpendExact
import StshProtocol.MerkleTree.Runs

/-! The wallet's mirror of the tree.

The wallet keeps the leaves it has downloaded and folds them level by level. What it gets is the
canister's root, as long as its arrays hold the leaves; and the path it gives a leaf leads there, as
long as the leaf's index is one of 31 bits: the sibling's index is found by a 32-bit operation whose
result is negative from there on, and a leaf past it is given the empty leaf for its sibling
(`mirror_exact`). -/
namespace StshProtocol.Wallet
open Foundation ShieldedPool BinaryTree MerklePath MerkleTree

/-- The most elements an array has. -/
def maxArrayLength : Nat := 2 ^ 32 - 1

inductive MirrorError where
  | incomplete (index : Nat) (leafCount : Int)
  | arrayLength
  | outOfRange (index leafCount : Int)
  deriving DecidableEq, Repr

/-- `LocalMerkleMirror`: the downloaded leaves by index. -/
abbrev Mirror : Type := StableMap Int Bytes32

def addLeaf (m : Mirror) (leaf : Int × Bytes32) : Mirror := m.insert leaf.1 leaf.2

section
variable (H : Bytes32 → Bytes32 → Bytes32)

def zeroValues : Nat → Bytes32
  | 0 => H 0 0
  | i + 1 => H (zeroValues i) (zeroValues i)

/-- The leaves from one index on, each of which must be there and have room. -/
def denseRow (m : Mirror) (leafCount : Int) : Nat → Nat → Except MirrorError (List Bytes32)
  | 0, _ => .ok []
  | remaining + 1, i =>
    match m[(i : Int)]? with
    | none => .error (.incomplete i leafCount)
    | some leaf =>
      if maxArrayLength ≤ i then .error .arrayLength
      else (denseRow m leafCount remaining (i + 1)).map (leaf :: ·)

/-- One level up, the missing nodes at the right edge empty. -/
def foldLevel (depth : Nat) (level : List Bytes32) : List Bytes32 :=
  (List.range (max ((level.length + 1) / 2) 1)).map fun i =>
    H (level.getD (2 * i) (zeroValues H depth)) (level.getD (2 * i + 1) (zeroValues H depth))

/-- The loop over the levels above `depth`. -/
def foldLevels : Nat → Nat → List Bytes32 → List Bytes32
  | 0, _, level => level
  | n + 1, depth, level => foldLevels n (depth + 1) (foldLevel H depth level)

/-- `root` of the mirror. -/
def mirrorRoot (m : Mirror) (leafCount : Int) : Except MirrorError Bytes32 :=
  (denseRow m leafCount leafCount.toNat 0).map fun level =>
    (foldLevels H MerkleTree.treeDepth 0 level).getD 0 0

/-- `position ^ 1`: on 32 bits, read with a sign. -/
def xorOne (position : Nat) : Int := (BitVec.ofNat 32 position ^^^ 1#32).toInt

/-- An element of an array; there is none at a negative index. -/
def levelAt (level : List Bytes32) (i : Int) : Option Bytes32 :=
  if 0 ≤ i then level[i.toNat]? else none

structure MerkleWitness where
  elements : List Bytes32
  indices : List Nat
  root : Bytes32

/-- The loop over the levels above `depth`: the sibling and the direction at each, and the root. -/
def walk : Nat → Nat → List Bytes32 → Nat → MerkleWitness
  | 0, _, level, _ => ⟨[], [], level.getD 0 0⟩
  | n + 1, depth, level, position =>
    let rest := walk n (depth + 1) (foldLevel H depth level) (position / 2)
    { elements := (levelAt level (xorOne position)).getD (zeroValues H depth) :: rest.elements
      indices := (if position % 2 = 0 then 0 else 1) :: rest.indices
      root := rest.root }

/-- `witness` of the mirror. -/
def mirrorWitness (m : Mirror) (leafIndex leafCount : Int) : Except MirrorError MerkleWitness :=
  if leafIndex < 0 ∨ leafCount ≤ leafIndex then .error (.outOfRange leafIndex leafCount)
  else
    (denseRow m leafCount leafCount.toNat 0).map fun level =>
      walk H MerkleTree.treeDepth 0 level leafIndex.toNat

def verifyMerkleWitness (leaf : Bytes32) (elements : List Bytes32) (indices : List Nat)
    (expectedRoot : Bytes32) : Bool :=
  if elements.length ≠ MerkleTree.treeDepth ∨ indices.length ≠ MerkleTree.treeDepth then false
  else
    ((indices.zip elements).foldl
      (fun current s => if s.1 = 0 then H current s.2 else H s.2 current) leaf) == expectedRoot

end

/-! ### The rows -/

section Rows
variable {H : Bytes32 → Bytes32 → Bytes32} {m : Mirror} {leaves level : List Bytes32}
  {leafCount : Int} {n i depth position : Nat}

/-- A row is given just if every leaf of it is there and all have room. -/
theorem denseRow_ok_iff : denseRow m leafCount n i = .ok level ↔
    (n = 0 ∨ i + n ≤ maxArrayLength) ∧ level.length = n ∧
      ∀ j < n, m[((i + j : Nat) : Int)]? = level[j]? := by
  induction n generalizing i level with
  | zero =>
    rw [denseRow, Except.ok.injEq]
    refine ⟨fun h => ⟨.inl rfl, by rw [← h]; rfl, fun j hj => absurd hj (Nat.not_lt_zero j)⟩,
      fun h => (List.eq_nil_of_length_eq_zero h.2.1).symm⟩
  | succ n ih =>
    rw [denseRow]
    cases hleaf : m[(i : Int)]? with
    | none =>
      refine ⟨nofun, fun ⟨_, hlength, hall⟩ => ?_⟩
      have hfirst := hall 0 (Nat.succ_pos n)
      rw [Nat.add_zero, hleaf] at hfirst
      rw [List.getElem?_eq_getElem (by omega)] at hfirst
      exact nomatch hfirst
    | some leaf =>
      show (if maxArrayLength ≤ i then _ else _) = _ ↔ _
      by_cases hroom : maxArrayLength ≤ i
      · rw [if_pos hroom]
        refine ⟨nofun, fun ⟨hfits, _⟩ => ?_⟩
        omega
      · rw [if_neg hroom]
        constructor
        · intro h
          obtain ⟨rest, hrest, rfl⟩ := map_ok h
          obtain ⟨hfits, hlength, hall⟩ := ih.1 hrest
          refine ⟨.inr (by omega), by rw [List.length_cons, hlength], fun j hj => ?_⟩
          cases j with
          | zero => exact hleaf
          | succ j =>
            rw [List.getElem?_cons_succ, ← hall j (by omega), Nat.add_right_comm i 1]
            rfl
        · rintro ⟨hfits, hlength, hall⟩
          cases level with
          | nil => exact nomatch hlength
          | cons first rest =>
            have hfirst := hall 0 (Nat.succ_pos n)
            rw [Nat.add_zero, hleaf] at hfirst
            obtain rfl : leaf = first := Option.some.inj hfirst
            have hrest : denseRow m leafCount n (i + 1) = .ok rest := by
              refine ih.2 ⟨.inr (by omega), Nat.succ.inj hlength, fun j hj => ?_⟩
              rw [Nat.add_right_comm i 1]
              exact hall (j + 1) (by omega)
            rw [hrest]
            rfl

/-- The mirror has the leaves under their indices. -/
def Holding (m : Mirror) (leaves : List Bytes32) : Prop :=
  ∀ j < leaves.length, m[(j : Int)]? = leaves[j]?

theorem denseRow_holding (h : Holding m leaves) (hroom : leaves.length ≤ maxArrayLength) :
    denseRow m leafCount leaves.length 0 = .ok leaves := by
  refine denseRow_ok_iff.2 ⟨.inr (by omega), rfl, fun j hj => ?_⟩
  rw [Nat.zero_add]
  exact h j hj

/-- The nodes of a level, those with no leaf below them left out. -/
def LevelOf (H : Bytes32 → Bytes32 → Bytes32) (leaves : List Bytes32) (depth : Nat)
    (level : List Bytes32) : Prop :=
  ∀ j, level.getD j (zeroValues H depth) = nodeOf H leaves depth j

theorem levelOf_leaves : LevelOf H leaves 0 leaves := fun _ => rfl

theorem length_foldLevel_pos : 0 < (foldLevel H depth level).length := by
  rw [foldLevel, List.length_map, List.length_range]
  omega

/-- Folding a level gives the level above. -/
theorem LevelOf.fold (h : LevelOf H leaves depth level) :
    LevelOf H leaves (depth + 1) (foldLevel H depth level) := by
  intro j
  have habove : nodeOf H leaves (depth + 1) j =
      H (level.getD (2 * j) (zeroValues H depth)) (level.getD (2 * j + 1) (zeroValues H depth)) := by
    rw [h, h]
    rfl
  rw [habove, foldLevel, List.getD_eq_getElem?_getD, List.getElem?_map]
  by_cases hj : j < max ((level.length + 1) / 2) 1
  · rw [List.getElem?_range hj]
    rfl
  · have hleft : level.length ≤ 2 * j := by omega
    have hright : level.length ≤ 2 * j + 1 := by omega
    rw [List.getElem?_eq_none (by rw [List.length_range]; omega),
      List.getD_eq_getElem?_getD, List.getD_eq_getElem?_getD, List.getElem?_eq_none hleft,
      List.getElem?_eq_none hright]
    rfl

theorem LevelOf.folds (h : LevelOf H leaves depth level) (n : Nat) :
    LevelOf H leaves (depth + n) (foldLevels H n depth level) := by
  induction n generalizing depth level with
  | zero => exact h
  | succ n ih =>
    rw [foldLevels, ← Nat.add_assoc, Nat.add_right_comm]
    exact ih h.fold

theorem length_foldLevels_pos : 0 < (foldLevels H (n + 1) depth level).length := by
  induction n generalizing depth level with
  | zero => exact length_foldLevel_pos
  | succ n ih => exact ih

/-- The node at the top. -/
theorem LevelOf.top (h : LevelOf H leaves 0 level) :
    (foldLevels H MerkleTree.treeDepth 0 level).getD 0 0 = fullRoot H leaves := by
  have hpos : 0 < (foldLevels H MerkleTree.treeDepth 0 level).length := length_foldLevels_pos
  have htop := h.folds MerkleTree.treeDepth 0
  rw [Nat.zero_add] at htop
  rw [List.getD_eq_getElem?_getD, List.getElem?_eq_getElem hpos] at htop ⊢
  exact htop

end Rows

/-! ### Siblings -/

theorem xor_one (position : Nat) :
    position ^^^ 1 = if position % 2 = 0 then position + 1 else position - 1 := by
  have hhigh : (position ^^^ 1) / 2 = position / 2 := by
    rw [Nat.xor_div_two, show 1 / 2 = 0 from rfl, Nat.xor_zero]
  have hlow := @Nat.xor_mod_two_eq_one position 1
  by_cases heven : position % 2 = 0
  · rw [if_pos heven]
    omega
  · rw [if_neg heven]
    omega

theorem xorOne_toNat {position : Nat} (h : position < 2 ^ 32) :
    (BitVec.ofNat 32 position ^^^ 1#32).toNat =
      if position % 2 = 0 then position + 1 else position - 1 := by
  rw [BitVec.toNat_xor, BitVec.toNat_ofNat, Nat.mod_eq_of_lt h, ← xor_one]
  rfl

/-- Of an index of 31 bits the sibling is found. -/
theorem xorOne_small {position : Nat} (h : position < 2 ^ 31) :
    xorOne position = ((if position % 2 = 0 then position + 1 else position - 1 : Nat) : Int) := by
  have hnat := xorOne_toNat (show position < 2 ^ 32 by omega)
  rw [xorOne, BitVec.toInt_eq_toNat_cond, hnat]
  by_cases heven : position % 2 = 0
  · rw [if_pos heven, if_pos (by omega)]
  · rw [if_neg heven, if_pos (by omega)]

/-- Of a greater one it is negative. -/
theorem xorOne_large {position : Nat} (h : 2 ^ 31 ≤ position) (h' : position < 2 ^ 32) :
    xorOne position < 0 := by
  have hnat := xorOne_toNat h'
  rw [xorOne, BitVec.toInt_eq_toNat_cond, hnat]
  by_cases heven : position % 2 = 0
  · rw [if_pos heven, if_neg (by omega)]
    omega
  · rw [if_neg heven, if_neg (by omega)]
    omega

/-! ### Witnesses -/

section Witnesses
variable {H : Bytes32 → Bytes32 → Bytes32} {m : Mirror} {leaves level elements : List Bytes32}
  {indices : List Nat} {n depth position i : Nat} {leaf expected : Bytes32}

/-- The tree's leaves, and the empty leaf from there on. -/
def treeLeaf (H : Bytes32 → Bytes32 → Bytes32) (leaves : List Bytes32) : Nat → Bytes32 :=
  row (zeroValue H 0) leaves

/-- A witness as the path it is. -/
def steps (elements : List Bytes32) (indices : List Nat) : List (Bool × Bytes32) :=
  (indices.zip elements).map fun s => (s.1 != 0, s.2)

theorem length_steps (helements : elements.length = n) (hindices : indices.length = n) :
    (steps elements indices).length = n := by
  rw [steps, List.length_map, List.length_zip, helements, hindices, Nat.min_self]

theorem verifyMerkleWitness_iff : verifyMerkleWitness H leaf elements indices expected = true ↔
    elements.length = MerkleTree.treeDepth ∧ indices.length = MerkleTree.treeDepth ∧
      climb H leaf (steps elements indices) = expected := by
  have hfold : ∀ path : List (Nat × Bytes32), ∀ current,
      path.foldl (fun current s => if s.1 = 0 then H current s.2 else H s.2 current) current =
        climb H current (path.map fun s => (s.1 != 0, s.2)) := by
    intro path
    induction path with
    | nil => exact fun _ => rfl
    | cons s path ih =>
      intro current
      rw [List.foldl_cons, ih, List.map_cons, MerklePath.climb, MerklePath.climb, List.foldl_cons, up,
        side]
      by_cases hzero : s.1 = 0
      · simp [hzero]
      · simp [hzero]
  unfold verifyMerkleWitness
  by_cases hlengths : elements.length ≠ MerkleTree.treeDepth ∨ indices.length ≠ MerkleTree.treeDepth
  · rw [if_pos hlengths]
    refine ⟨fun h => (by cases h), fun h => ?_⟩
    obtain ⟨helements, hindices, -⟩ := h
    rcases hlengths with hne | hne
    · exact absurd helements hne
    · exact absurd hindices hne
  · rw [if_neg hlengths, hfold, beq_iff_eq]
    rw [not_or, not_not, not_not] at hlengths
    exact ⟨fun h => ⟨hlengths.1, hlengths.2, h⟩, fun h => h.2.2⟩

theorem levelAt_nat (j : Nat) : levelAt level (j : Int) = level[j]? := by
  rw [levelAt, if_pos (Int.natCast_nonneg j), Int.toNat_natCast]

/-- A walk is as long as it is told to be, and its directions are bits. -/
theorem walk_shape : (walk H n depth level position).elements.length = n ∧
    (walk H n depth level position).indices.length = n ∧
    ∀ b ∈ (walk H n depth level position).indices, b = 0 ∨ b = 1 := by
  induction n generalizing depth level position with
  | zero => exact ⟨rfl, rfl, fun b hb => absurd hb List.not_mem_nil⟩
  | succ n ih =>
    obtain ⟨helements, hindices, hbits⟩ := @ih (foldLevel H depth level) (depth + 1) (position / 2)
    refine ⟨congrArg (· + 1) helements, congrArg (· + 1) hindices, fun b hb => ?_⟩
    rcases List.mem_cons.1 hb with rfl | hb
    · split
      · exact .inl rfl
      · exact .inr rfl
    · exact hbits b hb

/-- The path of a walk, as it is collected. -/
def walkSteps (H : Bytes32 → Bytes32 → Bytes32) (n depth : Nat) (level : List Bytes32)
    (position : Nat) : List (Bool × Bytes32) :=
  steps (walk H n depth level position).elements (walk H n depth level position).indices

theorem walkSteps_succ : walkSteps H (n + 1) depth level position =
    (position % 2 == 1, (levelAt level (xorOne position)).getD (zeroValues H depth)) ::
      walkSteps H n (depth + 1) (foldLevel H depth level) (position / 2) := by
  have hbit : ((if position % 2 = 0 then 0 else 1 : Nat) != 0) = (position % 2 == 1) := by
    rcases Nat.mod_two_eq_zero_or_one position with hmod | hmod <;> rw [hmod] <;> rfl
  rw [← hbit]
  rfl

/-- Above an index of 31 bits it is the path. -/
theorem walkSteps_small (h : LevelOf H leaves depth level) (hposition : position < 2 ^ 31) :
    walkSteps H n depth level position = path H (treeLeaf H leaves) n depth position := by
  induction n generalizing depth level position with
  | zero => rfl
  | succ n ih =>
    have hsibling : (levelAt level (xorOne position)).getD (zeroValues H depth) =
        node H (treeLeaf H leaves) depth (if position % 2 = 0 then position + 1 else position - 1) := by
      rw [xorOne_small hposition, levelAt_nat, ← List.getD_eq_getElem?_getD]
      exact h _
    rw [walkSteps_succ, hsibling, ih h.fold (by omega), path]

/-- What a leaf is given for its sibling: past 31 bits the empty leaf. -/
theorem sibling_given (hposition : position < 2 ^ 32) :
    (levelAt leaves (xorOne position)).getD (zeroValues H 0) =
      if position < 2 ^ 31 then
        treeLeaf H leaves (if position % 2 = 0 then position + 1 else position - 1)
      else zeroValue H 0 := by
  by_cases hsmall : position < 2 ^ 31
  · rw [if_pos hsmall, xorOne_small hsmall, levelAt_nat, ← List.getD_eq_getElem?_getD]
    rfl
  · have hneg := xorOne_large (Nat.not_lt.1 hsmall) hposition
    rw [if_neg hsmall, levelAt, if_neg (Int.not_le.2 hneg)]
    rfl

theorem walk_root : (walk H n depth level position).root =
    (foldLevels H n depth level).getD 0 0 := by
  induction n generalizing depth level position with
  | zero => rfl
  | succ n ih => exact ih

end Witnesses

/-! ### The mirror and the tree -/

/-- The pairs hashed in a tree and on the way up a path. -/
def hashed (H : Bytes32 → Bytes32 → Bytes32) (leaves : List Bytes32) (leaf : Bytes32)
    (path : List (Bool × Bytes32)) : Set (Bytes32 × Bytes32) :=
  treePairs H (treeLeaf H leaves) MerkleTree.treeDepth ∪ {p | p ∈ pairs H leaf path}

/-- No two of them have one hash. -/
def CollisionFree (H : Bytes32 → Bytes32 → Bytes32) (leaves : List Bytes32) (leaf : Bytes32)
    (path : List (Bool × Bytes32)) : Prop :=
  Set.InjOn (fun p : Bytes32 × Bytes32 => H p.1 p.2) (hashed H leaves leaf path)

/-- The mirror gives the tree's root, and a leaf of it a path that leads there. -/
structure Mirrors (H : Bytes32 → Bytes32 → Bytes32) (m : Mirror) (leaves : List Bytes32) (i : Nat) :
    Prop where
  root : mirrorRoot H m leaves.length = .ok (fullRoot H leaves)
  witness : ∃ w, mirrorWitness H m i leaves.length = .ok w ∧ w.root = fullRoot H leaves ∧
    w.elements.length = 32 ∧ w.indices.length = 32 ∧ (∀ b ∈ w.indices, b = 0 ∨ b = 1) ∧
    verifyMerkleWitness H (treeLeaf H leaves i) w.elements w.indices (fullRoot H leaves) = true

/-- The rows fit an array, and the leaf's index is one of 31 bits or its sibling the empty leaf. -/
def InReach (H : Bytes32 → Bytes32 → Bytes32) (leaves : List Bytes32) (i : Nat) : Prop :=
  leaves.length < 2 ^ 32 ∧ (i < 2 ^ 31 ∨
    treeLeaf H leaves (if i % 2 = 0 then i + 1 else i - 1) = zeroValue H 0)

section Mirrored
variable {H : Bytes32 → Bytes32 → Bytes32} {m : Mirror} {leaves elements : List Bytes32}
  {indices : List Nat} {i : Nat} {leaf : Bytes32}

/-- The root is given just if every leaf is there and the rows fit. -/
theorem mirrorRoot_error_iff {n : Nat} : (∃ e, mirrorRoot H m n = .error e) ↔
    (∃ j < n, m[(j : Int)]? = none) ∨ 2 ^ 32 ≤ n := by
  rw [mirrorRoot, Int.toNat_natCast]
  constructor
  · rintro ⟨e, he⟩
    by_contra hnot
    rw [not_or, not_exists] at hnot
    have hall : ∀ j < n, ∃ x, m[(j : Int)]? = some x := fun j hj =>
      Option.ne_none_iff_exists'.1 fun hnone => hnot.1 j ⟨hj, hnone⟩
    have hrow : denseRow m n n 0 =
        .ok ((List.range n).map fun j : Nat => (m[(j : Int)]?).getD 0) := by
      refine denseRow_ok_iff.2 ⟨.inr ?_, ?_, fun j hj => ?_⟩
      · rw [maxArrayLength]
        omega
      · rw [List.length_map, List.length_range]
      · obtain ⟨x, hx⟩ := hall j hj
        rw [List.getElem?_map, List.getElem?_range hj, Nat.zero_add, hx, Option.map_some, hx,
          Option.getD_some]
    rw [hrow] at he
    exact nomatch he
  · intro h
    cases hrow : denseRow m n n 0 with
    | error e => exact ⟨e, rfl⟩
    | ok level =>
      obtain ⟨hfits, hlength, hall⟩ := denseRow_ok_iff.1 hrow
      rcases h with ⟨j, hj, hnone⟩ | hlarge
      · have hsome := hall j hj
        rw [Nat.zero_add, hnone, List.getElem?_eq_getElem (by omega)] at hsome
        exact nomatch hsome
      · rw [maxArrayLength] at hfits
        omega

theorem mirrorRoot_ok (h : Holding m leaves) (hroom : leaves.length < 2 ^ 32) :
    mirrorRoot H m leaves.length = .ok (fullRoot H leaves) := by
  rw [mirrorRoot, Int.toNat_natCast,
    denseRow_holding h (by rw [maxArrayLength]; omega), Except.map, levelOf_leaves.top]

theorem mirrorWitness_ok (h : Holding m leaves) (hroom : leaves.length < 2 ^ 32)
    (hi : i < leaves.length) : mirrorWitness H m i leaves.length =
      .ok (walk H MerkleTree.treeDepth 0 leaves i) := by
  rw [mirrorWitness, if_neg (by omega), Int.toNat_natCast, Int.toNat_natCast,
    denseRow_holding h (by rw [maxArrayLength]; omega), Except.map]

/-- The path of a leaf whose sibling is the one it is given. -/
theorem walkSteps_reach (hi : i < 2 ^ 32) (h : i < 2 ^ 31 ∨
    treeLeaf H leaves (if i % 2 = 0 then i + 1 else i - 1) = zeroValue H 0) :
    walkSteps H MerkleTree.treeDepth 0 leaves i =
      path H (treeLeaf H leaves) MerkleTree.treeDepth 0 i := by
  have hlevel : LevelOf H leaves 0 leaves := levelOf_leaves
  rw [MerkleTree.treeDepth, walkSteps_succ, sibling_given hi, path,
    walkSteps_small hlevel.fold (by omega)]
  by_cases hsmall : i < 2 ^ 31
  · rw [if_pos hsmall]
    rfl
  · rw [if_neg hsmall, ← h.resolve_left hsmall]
    rfl

theorem climb_leaf (hi : i < 2 ^ 32) : MerklePath.climb H (treeLeaf H leaves i)
    (path H (treeLeaf H leaves) MerkleTree.treeDepth 0 i) = fullRoot H leaves := by
  have hclimb := @climb_path _ H (treeLeaf H leaves) MerkleTree.treeDepth 0 i
  rw [Nat.zero_add, Nat.div_eq_of_lt (show i < 2 ^ MerkleTree.treeDepth from hi)] at hclimb
  exact hclimb

theorem mirrors_of_inReach (hholding : Holding m leaves) (hi : i < leaves.length)
    (h : InReach H leaves i) : Mirrors H m leaves i := by
  obtain ⟨hroom, hreach⟩ := h
  refine ⟨mirrorRoot_ok hholding hroom, _, mirrorWitness_ok hholding hroom hi, ?_,
    walk_shape.1, walk_shape.2.1, walk_shape.2.2,
    verifyMerkleWitness_iff.2 ⟨walk_shape.1, walk_shape.2.1, ?_⟩⟩
  · rw [walk_root, levelOf_leaves.top]
  · exact (congrArg _ (walkSteps_reach (by omega) hreach)).trans (climb_leaf (by omega))

/-- A leaf whose path leads to the root has its own sibling on it. -/
theorem inReach_of_mirrors (hcapacity : leaves.length ≤ maxTreeLeaves) (hholding : Holding m leaves)
    (hi : i < leaves.length) (h : Mirrors H m leaves i)
    (hfree : CollisionFree H leaves (treeLeaf H leaves i)
      (walkSteps H MerkleTree.treeDepth 0 leaves i)) : InReach H leaves i := by
  have hroom : leaves.length < 2 ^ 32 := by
    by_contra hlarge
    obtain ⟨e, he⟩ := mirrorRoot_error_iff.2 (.inr (Nat.not_lt.1 hlarge))
    exact nomatch he.symm.trans h.root
  have hbound : i < 2 ^ 32 := Nat.lt_of_lt_of_le hi hcapacity
  refine ⟨hroom, ?_⟩
  by_contra hnot
  rw [not_or] at hnot
  obtain ⟨hlarge, hsibling⟩ := hnot
  obtain ⟨w, hw, -, -, -, -, hverified⟩ := h.witness
  obtain rfl := Except.ok.inj ((mirrorWitness_ok hholding hroom hi).symm.trans hw)
  obtain ⟨-, -, hclimb⟩ := verifyMerkleWitness_iff.1 hverified
  have hlevel : LevelOf H leaves 0 leaves := levelOf_leaves
  have hsteps : walkSteps H MerkleTree.treeDepth 0 leaves i =
      (i % 2 == 1, zeroValue H 0) :: path H (treeLeaf H leaves) 31 1 (i / 2) := by
    rw [MerkleTree.treeDepth, walkSteps_succ, sibling_given hbound, if_neg hlarge,
      walkSteps_small hlevel.fold (by omega)]
  have hup : MerklePath.climb H (up H (treeLeaf H leaves i) (i % 2 == 1, zeroValue H 0))
      (path H (treeLeaf H leaves) 31 1 (i / 2)) = node H (treeLeaf H leaves) (1 + 31) 0 := by
    have hall : MerklePath.climb H (treeLeaf H leaves i)
        (walkSteps H MerkleTree.treeDepth 0 leaves i) = fullRoot H leaves := hclimb
    rw [hsteps] at hall
    exact hall
  rw [hsteps] at hfree
  -- The value above the leaf is the tree's, and so is the pair it was hashed from.
  have habove := leaf_of_climb (n := MerkleTree.treeDepth) (l := 1) (k := 0)
    (by rw [length_path]; exact Nat.le_refl _)
    (hfree.mono (Set.union_subset_union_right _ fun p hp => List.mem_cons_of_mem _ hp))
    (by rw [length_path]; exact hup)
  have hmod : i / 2 % 2 ^ 31 = i / 2 := Nat.mod_eq_of_lt (by omega)
  rw [position_path, Nat.zero_mul, Nat.zero_add, hmod] at habove
  have hpair : side (treeLeaf H leaves i) (i % 2 == 1, zeroValue H 0) =
      (treeLeaf H leaves (2 * (i / 2)), treeLeaf H leaves (2 * (i / 2) + 1)) :=
    hfree (.inr (List.mem_cons_self ..)) (.inl ⟨0, by decide, i / 2, rfl⟩) habove
  rw [side] at hpair
  by_cases heven : i % 2 = 0
  · have hbit : (i % 2 == 1) = false := by rw [heven]; rfl
    rw [hbit] at hpair
    rw [if_pos heven] at hsibling
    have hright : zeroValue H 0 = treeLeaf H leaves (2 * (i / 2) + 1) := congrArg Prod.snd hpair
    rw [show 2 * (i / 2) + 1 = i + 1 by omega] at hright
    exact hsibling hright.symm
  · have hbit : (i % 2 == 1) = true := by rw [show i % 2 = 1 by omega]; rfl
    rw [hbit] at hpair
    rw [if_neg heven] at hsibling
    have hleft : zeroValue H 0 = treeLeaf H leaves (2 * (i / 2)) := congrArg Prod.fst hpair
    rw [show 2 * (i / 2) = i - 1 by omega] at hleft
    exact hsibling hleft.symm

/-- A witness is accepted of no other leaf than the one at its position. -/
theorem leaf_of_verified (hfree : CollisionFree H leaves leaf (steps elements indices))
    (h : verifyMerkleWitness H leaf elements indices (fullRoot H leaves) = true) :
    leaf = treeLeaf H leaves (position (steps elements indices)) := by
  obtain ⟨helements, hindices, hclimb⟩ := verifyMerkleWitness_iff.1 h
  have hlength : (steps elements indices).length = MerkleTree.treeDepth :=
    length_steps helements hindices
  have hleaf := leaf_of_climb (n := MerkleTree.treeDepth) (l := 0) (k := 0)
    (by rw [hlength, Nat.zero_add]) hfree (by rw [hlength]; exact hclimb)
  rw [Nat.zero_mul, Nat.zero_add] at hleaf
  exact hleaf

/-! ### The circuit -/

/-- The circuit's climb is the wallet's, level by level. -/
theorem circuit_climb {poseidon : List Circuits.Fr → Circuits.Fr} {decode : Bytes32 → Circuits.Fr}
    (hdecode : ∀ a b, decode (H a b) = poseidon [decode a, decode b])
    (hbits : ∀ b ∈ indices, b = 0 ∨ b = 1) {n : Nat} (helements : n ≤ elements.length)
    (hindices : n ≤ indices.length) :
    Circuits.climb poseidon (decode leaf) (fun d => decode (elements.getD d 0))
        (fun d => ((indices.getD d 0 : Nat) : Circuits.Fr)) n =
      decode (MerklePath.climb H leaf ((steps elements indices).take n)) := by
  induction n with
  | zero => rfl
  | succ n ih =>
    have hi : n < indices.length := by omega
    have he : n < elements.length := by omega
    have hzip : (indices.zip elements)[n]? = some (indices[n], elements[n]) :=
      List.getElem?_zip_eq_some.2 ⟨List.getElem?_eq_getElem hi, List.getElem?_eq_getElem he⟩
    have hindex : indices.getD n 0 = indices[n] := by
      rw [List.getD_eq_getElem?_getD, List.getElem?_eq_getElem hi, Option.getD_some]
    have helement : elements.getD n 0 = elements[n] := by
      rw [List.getD_eq_getElem?_getD, List.getElem?_eq_getElem he, Option.getD_some]
    have hstep : (steps elements indices)[n]? = some (indices[n] != 0, elements[n]) := by
      rw [steps, List.getElem?_map, hzip, Option.map_some]
    rw [Circuits.climb, ih (by omega) (by omega), List.take_add_one, hstep, MerklePath.climb,
      MerklePath.climb, List.foldl_append, hindex, helement]
    show poseidon _ = decode (up H _ _)
    rw [up, side, hdecode, Circuits.children]
    rcases hbits _ (List.getElem_mem hi) with hbit | hbit
    · rw [hbit, Nat.cast_zero, if_neg zero_ne_one]
      rfl
    · rw [hbit, Nat.cast_one, if_pos rfl]
      rfl

/-- With a witness the wallet accepts, the circuit's path proof yields the root, and no other. -/
theorem merkleProof_of_verified {poseidon : List Circuits.Fr → Circuits.Fr}
    {decode : Bytes32 → Circuits.Fr} {root : Bytes32}
    (hdecode : ∀ a b, decode (H a b) = poseidon [decode a, decode b])
    (hbits : ∀ b ∈ indices, b = 0 ∨ b = 1)
    (h : verifyMerkleWitness H leaf elements indices root = true) (anchor : Circuits.Fr) :
    Circuits.MerkleProof poseidon Circuits.treeDepth (decode leaf)
        (fun d => decode (elements.getD d 0)) (fun d => ((indices.getD d 0 : Nat) : Circuits.Fr))
        anchor ↔ anchor = decode root := by
  obtain ⟨helements, hindices, hclimb⟩ := verifyMerkleWitness_iff.1 h
  have htake : (steps elements indices).take 32 = steps elements indices :=
    List.take_of_length_le (Nat.le_of_eq (length_steps helements hindices))
  have hcircuit := @circuit_climb H elements indices leaf poseidon decode hdecode hbits 32
    (Nat.le_of_eq helements.symm) (Nat.le_of_eq hindices.symm)
  rw [htake, hclimb] at hcircuit
  rw [Circuits.merkleProof_iff, Circuits.treeDepth, hcircuit]
  refine ⟨fun hproof => hproof.2, fun hroot => ⟨fun d hd => ?_, hroot⟩⟩
  have hlt : d < indices.length := Nat.lt_of_lt_of_eq hd hindices.symm
  have hbit := hbits _ (List.getElem_mem hlt)
  rw [List.getD_eq_getElem?_getD, List.getElem?_eq_getElem hlt, Option.getD_some]
  rcases hbit with hbit | hbit
  · exact .inl (by rw [hbit, Nat.cast_zero])
  · exact .inr (by rw [hbit, Nat.cast_one])

/-! ### Adding leaves -/

/-- What was added last under an index, where all that was added there is the same. -/
theorem get_addLeaf {adds : List (Int × Bytes32)} {j : Int} {x : Bytes32}
    (hsame : ∀ y, (j, y) ∈ adds → y = x) (h : (j, x) ∈ adds ∨ m[j]? = some x) :
    (adds.foldl addLeaf m)[j]? = some x := by
  induction adds generalizing m with
  | nil => exact h.resolve_left List.not_mem_nil
  | cons a adds ih =>
    rw [List.foldl_cons]
    refine ih (fun y hy => hsame y (List.mem_cons_of_mem _ hy)) ?_
    by_cases hj : a.1 = j
    · refine .inr ?_
      have ha : a.2 = x := hsame a.2 (by rw [← hj]; exact List.mem_cons_self ..)
      rw [addLeaf, StableMap.get_insert, if_pos hj, ha]
    · rcases h with hmem | hsome
      · rcases List.mem_cons.1 hmem with rfl | hmem
        · exact absurd rfl hj
        · exact .inl hmem
      · refine .inr ?_
        rw [addLeaf, StableMap.get_insert, if_neg hj]
        exact hsome

/-- Leaves added in any order, any of them more than once, and any others past them. -/
theorem holding_of_adds {adds : List (Int × Bytes32)}
    (hall : ∀ j (hj : j < leaves.length), ((j : Int), leaves[j]) ∈ adds)
    (hsame : ∀ j (hj : j < leaves.length) y, ((j : Int), y) ∈ adds → y = leaves[j]) :
    Holding (adds.foldl addLeaf ∅) leaves := by
  intro j hj
  rw [List.getElem?_eq_getElem hj]
  exact get_addLeaf (fun y hy => hsame j hj y hy) (.inl (hall j hj))

end Mirrored

/-- The wallet's mirror and the canister's tree. The mirror's root is the canister's, and is refused
just if a leaf is missing or the rows do not fit; a leaf's path leads to the root, in the circuit
too, just if the leaf is in reach; and a witness is accepted of no other leaf than the one at its
position. -/
theorem mirror_exact (H : Bytes32 → Bytes32 → Bytes32) (leaves : List Bytes32) :
    (∀ pool s, MerkleTree.Run H pool leaves s → currentRoot H s = fullRoot H leaves) ∧
    (∀ adds : List (Int × Bytes32),
      (∀ j (hj : j < leaves.length), ((j : Int), leaves[j]) ∈ adds) →
      (∀ j (hj : j < leaves.length) y, ((j : Int), y) ∈ adds → y = leaves[j]) →
        Holding (adds.foldl addLeaf ∅) leaves) ∧
    (∀ (m : Mirror) (n : Nat), (∃ e, mirrorRoot H m n = .error e) ↔
      (∃ j < n, m[(j : Int)]? = none) ∨ 2 ^ 32 ≤ n) ∧
    (∀ m : Mirror, Holding m leaves → leaves.length < 2 ^ 32 →
      mirrorRoot H m leaves.length = .ok (fullRoot H leaves)) ∧
    (∀ (m : Mirror) (i : Nat), leaves.length ≤ maxTreeLeaves → Holding m leaves →
      i < leaves.length → (InReach H leaves i → Mirrors H m leaves i) ∧
        (CollisionFree H leaves (treeLeaf H leaves i)
          (walkSteps H MerkleTree.treeDepth 0 leaves i) →
            (Mirrors H m leaves i ↔ InReach H leaves i))) ∧
    (∀ (leaf : Bytes32) (elements : List Bytes32) (indices : List Nat),
      CollisionFree H leaves leaf (steps elements indices) →
        verifyMerkleWitness H leaf elements indices (fullRoot H leaves) = true →
          leaf = treeLeaf H leaves (position (steps elements indices))) ∧
    ∀ (poseidon : List Circuits.Fr → Circuits.Fr) (decode : Bytes32 → Circuits.Fr) (leaf root : Bytes32)
      (elements : List Bytes32) (indices : List Nat),
      (∀ a b, decode (H a b) = poseidon [decode a, decode b]) →
      (∀ b ∈ indices, b = 0 ∨ b = 1) →
        verifyMerkleWitness H leaf elements indices root = true → ∀ anchor,
          Circuits.MerkleProof poseidon Circuits.treeDepth (decode leaf)
            (fun d => decode (elements.getD d 0))
            (fun d => ((indices.getD d 0 : Nat) : Circuits.Fr)) anchor ↔ anchor = decode root :=
  ⟨fun _ _ run => (tree_is_full run).root, fun _ => holding_of_adds, fun _ _ => mirrorRoot_error_iff,
    fun _ => mirrorRoot_ok, fun _ _ hcapacity hholding hi =>
      ⟨mirrors_of_inReach hholding hi, fun hfree =>
        ⟨fun h => inReach_of_mirrors hcapacity hholding hi h hfree, mirrors_of_inReach hholding hi⟩⟩,
    fun _ _ _ => leaf_of_verified, fun _ _ _ _ _ _ => merkleProof_of_verified⟩

/-- Two leaves, the second added first. -/
theorem mirror_exact_two :
    let H : Bytes32 → Bytes32 → Bytes32 := fun a b => a + 3 * b + 1
    Mirrors H ([(1, 6), (0, 5)].foldl addLeaf ∅) [5, 6] 1 := by
  intro H
  obtain ⟨-, hadds, -, -, hmirrors, -, -⟩ := mirror_exact H [5, 6]
  have hholding := hadds [(1, 6), (0, 5)] (by decide) (by
    intro j hj y hy
    match j, hj with
    | 0, _ => simpa using hy
    | 1, _ => simpa using hy)
  exact (hmirrors _ 1 (by decide) hholding (by decide)).1 ⟨by decide, .inl (by decide)⟩

/-! ### Past 31 bits -/

/-- A tree of one leaf more than 31 bits count, and its sibling. -/
def largeTree : List Bytes32 := List.replicate (2 ^ 31 + 2) 1

def largeMirror : Mirror :=
  (largeTree.zipIdx.map fun leaf => ((leaf.2 : Int), leaf.1)).foldl addLeaf ∅

theorem holding_large : Holding largeMirror largeTree := by
  refine holding_of_adds (fun j hj => ?_) fun j hj y hy => ?_
  · exact List.mem_map.2 ⟨(largeTree[j], j), List.mk_mem_zipIdx_iff_getElem?.2
      (List.getElem?_eq_getElem hj), rfl⟩
  · obtain ⟨⟨x, k⟩, hk, heq⟩ := List.mem_map.1 hy
    obtain ⟨hkj, rfl⟩ := Prod.mk.inj heq
    obtain rfl : k = j := Int.ofNat.inj hkj
    have hx := List.mk_mem_zipIdx_iff_getElem?.1 hk
    rw [List.getElem?_eq_getElem hj] at hx
    exact (Option.some.inj hx).symm

/-- Under a sum the climb carries a difference up unchanged. -/
theorem climb_sum (current other : Bytes32) (path : List (Bool × Bytes32)) :
    MerklePath.climb (· + ·) (current + other) path =
      MerklePath.climb (· + ·) current path + other := by
  induction path generalizing current with
  | nil => rfl
  | cons s path ih =>
    have hup : up (· + ·) (current + other) s = up (· + ·) current s + other := by
      obtain ⟨b, sibling⟩ := s
      cases b with
      | false =>
        show current + other + sibling = current + sibling + other
        rw [BitVec.add_assoc, BitVec.add_comm other, BitVec.add_assoc]
      | true => exact (BitVec.add_assoc sibling current other).symm
    rw [MerklePath.climb, MerklePath.climb, List.foldl_cons, List.foldl_cons, hup]
    exact ih _

/-- So the first sibling is what the root has more than without it. -/
theorem climb_sum_cons (current sibling : Bytes32) (path : List (Bool × Bytes32)) :
    MerklePath.climb (· + ·) current ((false, sibling) :: path) =
      MerklePath.climb (· + ·) current path + sibling :=
  climb_sum current sibling path

/-- Of a leaf past 31 bits the wallet refuses its own witness. -/
theorem mirror_refuses_large : ¬Mirrors (· + ·) largeMirror largeTree (2 ^ 31) := by
  intro h
  have hlength : largeTree.length = 2 ^ 31 + 2 := List.length_replicate
  have hroom : largeTree.length < 2 ^ 32 := by
    rw [hlength]
    decide
  obtain ⟨w, hw, -, -, -, -, hverified⟩ := h.witness
  have hok := @mirrorWitness_ok (· + ·) largeMirror largeTree (2 ^ 31) holding_large hroom
    (by rw [hlength]; decide)
  obtain rfl := Except.ok.inj (hok.symm.trans hw)
  obtain ⟨-, -, hclimb⟩ := verifyMerkleWitness_iff.1 hverified
  have hlevel : LevelOf (· + ·) largeTree 0 largeTree := levelOf_leaves
  have hwrong : walkSteps (· + ·) MerkleTree.treeDepth 0 largeTree (2 ^ 31) =
      (false, 0) :: path (· + ·) (treeLeaf (· + ·) largeTree) 31 1 (2 ^ 30) := by
    rw [MerkleTree.treeDepth, walkSteps_succ, sibling_given (by decide), if_neg (by decide),
      walkSteps_small hlevel.fold (by decide)]
    rfl
  have hsibling : treeLeaf (· + ·) largeTree (2 ^ 31 + 1) = 1 := by
    rw [treeLeaf, row, List.getD_eq_getElem?_getD, largeTree, List.getElem?_replicate,
      if_pos (by decide), Option.getD_some]
  have hright := @climb_leaf (· + ·) largeTree (2 ^ 31) (by decide)
  have hpath : path (· + ·) (treeLeaf (· + ·) largeTree) 32 0 (2 ^ 31) =
      (false, 1) :: path (· + ·) (treeLeaf (· + ·) largeTree) 31 1 (2 ^ 30) := by
    rw [path, ← hsibling]
    rfl
  rw [MerkleTree.treeDepth, hpath] at hright
  rw [walkSteps] at hwrong
  rw [hwrong] at hclimb
  -- The two climbs differ by the sibling all the way up.
  rw [climb_sum_cons] at hclimb hright
  rw [← hright] at hclimb
  have hdifferent : ∀ c : Bytes32, c + 0 ≠ c + 1 := fun c heq => by bv_omega
  exact hdifferent _ hclimb

end StshProtocol.Wallet
