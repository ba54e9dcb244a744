import StshProtocol.MerkleTree.State
import StshProtocol.Foundation.BinaryTree

/-! One append keeps the node map exact.

The map holds, under its packed key, the value of every node that has a leaf below it,
and nothing else (`Exact`). A sibling that is in the map therefore has its value, and
one that is not is blank; so the climb from a new leaf meets the values of the new tree
level by level (`climb_range`), and the nodes it writes are the ones that changed. -/
namespace StshProtocol.MerkleTree
open Foundation ShieldedPool BinaryTree

variable (H : Bytes32 → Bytes32 → Bytes32)

/-- The value of a node over some leaves and blank ones after them. -/
def nodeOf (leaves : List Bytes32) (level i : Nat) : Bytes32 :=
  node H (row (zeroValue H 0) leaves) level i

/-- The root of the complete tree. -/
def fullRoot (leaves : List Bytes32) : Bytes32 := nodeOf H leaves treeDepth 0

variable {H}

theorem zeroValue_eq_blank (level : Nat) : zeroValue H level = blank H (zeroValue H 0) level := by
  induction level with
  | zero => rfl
  | succ level ih =>
    rw [zeroValue, blank]
    exact congrArg₂ H ih ih

/-! ### Node keys -/

theorem encodeNodeKey_eq {level index : Nat} (h : index < 2 ^ 32) :
    encodeNodeKey level index = level * 2 ^ 32 + index := by
  rw [encodeNodeKey, show index &&& 0xFFFFFFFF = index % 2 ^ 32 from Nat.and_two_pow_sub_one_eq_mod _ 32,
    Nat.mod_eq_of_lt h, ← Nat.shiftLeft_add_eq_or_of_lt h, Nat.shiftLeft_eq]

/-- Up to the last leaf no two nodes share a key. -/
theorem encodeNodeKey_inj {level level' i i' : Nat} (hi : i < 2 ^ 32) (hi' : i' < 2 ^ 32)
    (h : encodeNodeKey level i = encodeNodeKey level' i') : level = level' ∧ i = i' := by
  rw [encodeNodeKey_eq hi, encodeNodeKey_eq hi'] at h
  omega

/-! ### The map -/

/-- The map holds the nodes that have a leaf below them, and no other. -/
def Exact (H : Bytes32 → Bytes32 → Bytes32) (leaves : List Bytes32) (nodes : StableMap Nat Bytes32) :
    Prop :=
  ∀ key v, nodes[key]? = some v ↔ ∃ level i, level < treeDepth ∧ i * 2 ^ level < leaves.length ∧
    key = encodeNodeKey level i ∧ v = nodeOf H leaves level i

variable {leaves : List Bytes32} {nodes : StableMap Nat Bytes32} {leaf : Bytes32}

theorem exact_empty : Exact H [] ∅ := by
  intro key v
  constructor
  · intro h
    simp at h
  · rintro ⟨level, i, -, hlt, -, -⟩
    exact absurd hlt (Nat.not_lt_zero _)

theorem index_lt_of_leaf {level i : Nat} (hcap : leaves.length ≤ maxTreeLeaves)
    (h : i * 2 ^ level < leaves.length) : i < 2 ^ 32 :=
  Nat.lt_of_le_of_lt (Nat.le_mul_of_pos_right i (Nat.two_pow_pos level))
    (Nat.lt_of_lt_of_le h hcap)

/-- What the map gives for a sibling, the table of blank nodes filling in, is its value. -/
theorem Exact.sibling (h : Exact H leaves nodes) (hcap : leaves.length ≤ maxTreeLeaves)
    {level i : Nat} (hlevel : level < treeDepth) (hi : i < 2 ^ 32) :
    (nodes[encodeNodeKey level i]?).getD (zeroValue H level) = nodeOf H leaves level i := by
  by_cases hlt : i * 2 ^ level < leaves.length
  · rw [(h _ _).2 ⟨level, i, hlevel, hlt, rfl, rfl⟩, Option.getD_some]
  · have hnone : nodes[encodeNodeKey level i]? = none := by
      refine Option.eq_none_iff_forall_ne_some.2 fun v hv => ?_
      obtain ⟨level', i', -, hlt', hkey, -⟩ := (h _ _).1 hv
      obtain ⟨rfl, rfl⟩ := encodeNodeKey_inj hi (index_lt_of_leaf hcap hlt') hkey
      exact hlt hlt'
    rw [hnone, Option.getD_none, zeroValue_eq_blank]
    exact (node_row_blank (Nat.not_lt.1 hlt)).symm

theorem nodeOf_append {level i : Nat} (h : leaves.length / 2 ^ level ≠ i) :
    nodeOf H (leaves ++ [leaf]) level i = nodeOf H leaves level i := node_append h

/-- The index reached at a level, and its sibling, are indices of the level. -/
theorem sibling_lt {k : Nat} (hk : k < maxTreeLeaves) (level : Nat) :
    k / 2 ^ level < 2 ^ 32 ∧ k / 2 ^ level + 1 ≤ 2 ^ 32 ∧
      (k / 2 ^ level % 2 = 0 → k / 2 ^ level + 1 < 2 ^ 32) := by
  have hle : k / 2 ^ level < 2 ^ 32 := Nat.lt_of_le_of_lt (Nat.div_le_self _ _) hk
  omega

/-- The climb after `l` levels: it has reached the node of the new tree above the new
leaf, and has written the path below it and nothing else. -/
theorem climb_range (leaf : Bytes32) (h : Exact H leaves nodes) (hcap : leaves.length < maxTreeLeaves) {l : Nat}
    (hl : l ≤ treeDepth) :
    let k := leaves.length
    let c := (List.range l).foldl (climb H) ⟨nodes, leaf, k⟩
    c.index = k / 2 ^ l ∧ c.current = nodeOf H (leaves ++ [leaf]) l (k / 2 ^ l) ∧
      (∀ a < l, c.nodes[encodeNodeKey a (k / 2 ^ a)]? =
        some (nodeOf H (leaves ++ [leaf]) a (k / 2 ^ a))) ∧
      ∀ key, (∀ a < l, key ≠ encodeNodeKey a (k / 2 ^ a)) → c.nodes[key]? = nodes[key]? := by
  induction l with
  | zero =>
    refine ⟨?_, ?_, fun a ha => absurd ha (Nat.not_lt_zero a), fun _ _ => rfl⟩
    · rw [pow_zero, Nat.div_one]
      rfl
    · rw [pow_zero, Nat.div_one]
      exact row_append_self.symm
  | succ l ih =>
    obtain ⟨hindex, hcurrent, hpath, hrest⟩ := ih (by omega)
    simp only [List.range_succ, List.foldl_append, List.foldl_cons, List.foldl_nil]
    generalize (List.range l).foldl (climb H) ⟨nodes, leaf, leaves.length⟩ = c at *
    have hlevel : l < treeDepth := hl
    obtain ⟨hown, -, hnext⟩ := sibling_lt hcap l
    -- The sibling's key is not on the path, so the map still holds what it held.
    have hsibling : ∀ sib, sib < 2 ^ 32 → sib ≠ leaves.length / 2 ^ l →
        ((c.nodes.insert (encodeNodeKey l c.index) c.current)[encodeNodeKey l sib]?).getD
          (zeroValue H l) = nodeOf H (leaves ++ [leaf]) l sib := by
      intro sib hsib hne
      rw [StableMap.get_insert, if_neg, hrest, h.sibling (Nat.le_of_lt hcap) hlevel hsib,
        nodeOf_append hne.symm]
      · intro a ha hkey
        have ha' := (sibling_lt hcap a).1
        exact absurd (encodeNodeKey_inj hsib ha' hkey).1 (by omega)
      · intro hkey
        rw [hindex] at hkey
        exact hne (encodeNodeKey_inj hown hsib hkey).2.symm
    refine ⟨?_, ?_, fun a ha => ?_, fun key hkey => ?_⟩
    · show c.index / 2 = _
      rw [hindex, pow_succ, Nat.div_div_eq_div_mul]
    · rw [nodeOf, node_up]
      simp only [climb, hindex]
      rw [← hindex]
      split
      · next heven =>
        rw [hindex] at heven
        rw [hsibling _ (by rw [hindex]; exact hnext heven) (by omega), hcurrent, hindex]
        rfl
      · next hodd =>
        rw [hindex] at hodd
        rw [hsibling _ (by omega) (by omega), hcurrent, hindex]
        rfl
    · show (c.nodes.insert (encodeNodeKey l c.index) c.current)[_]? = _
      rw [StableMap.get_insert]
      rcases Nat.lt_or_eq_of_le (Nat.le_of_lt_succ ha) with hlt | rfl
      · rw [if_neg, hpath a hlt]
        intro heq
        rw [hindex] at heq
        have ha' := (sibling_lt hcap a).1
        exact absurd (encodeNodeKey_inj hown ha' heq).1 (by omega)
      · rw [if_pos (by rw [hindex]), hcurrent]
    · show (c.nodes.insert (encodeNodeKey l c.index) c.current)[key]? = _
      rw [StableMap.get_insert, if_neg, hrest key fun a ha => hkey a (by omega)]
      rw [hindex]
      exact fun heq => hkey l (by omega) heq.symm

/-- An append reaches the root of the new tree, and leaves its nodes in the map. -/
theorem Exact.updateTree (leaf : Bytes32) (h : Exact H leaves nodes) (hcap : leaves.length < maxTreeLeaves) :
    (updateTree H nodes leaves.length leaf).current = fullRoot H (leaves ++ [leaf]) ∧
      Exact H (leaves ++ [leaf]) (updateTree H nodes leaves.length leaf).nodes := by
  obtain ⟨-, hroot, hpath, hrest⟩ := climb_range leaf h hcap (Nat.le_refl treeDepth)
  have hk : leaves.length / 2 ^ treeDepth = 0 := Nat.div_eq_of_lt hcap
  refine ⟨by rw [hk] at hroot; exact hroot, fun key v => ⟨fun hv => ?_, ?_⟩⟩
  · by_cases hon : ∃ a < treeDepth, key = encodeNodeKey a (leaves.length / 2 ^ a)
    · obtain ⟨a, ha, rfl⟩ := hon
      refine ⟨a, _, ha, ?_, rfl, (Option.some.inj ((hpath a ha).symm.trans hv)).symm⟩
      rw [List.length_append, List.length_singleton]
      exact Nat.lt_succ_of_le (Nat.div_mul_le_self _ _)
    · have hoff : ∀ a < treeDepth, key ≠ encodeNodeKey a (leaves.length / 2 ^ a) :=
        fun a ha heq => hon ⟨a, ha, heq⟩
      obtain ⟨level, i, hlevel, hlt, rfl, rfl⟩ := (h key v).1 ((hrest key hoff).symm.trans hv)
      refine ⟨level, i, hlevel, ?_, rfl, (nodeOf_append ?_).symm⟩
      · rw [List.length_append]
        omega
      · rintro rfl
        exact hoff level hlevel rfl
  · rintro ⟨level, i, hlevel, hlt, rfl, rfl⟩
    rw [List.length_append, List.length_singleton] at hlt
    have hle : i ≤ leaves.length / 2 ^ level :=
      (Nat.le_div_iff_mul_le (Nat.two_pow_pos level)).2 (Nat.le_of_lt_succ hlt)
    rcases Nat.lt_or_eq_of_le hle with hbelow | rfl
    · have hi : i < 2 ^ 32 := Nat.lt_trans hbelow (sibling_lt hcap _).1
      have hold : i * 2 ^ level < leaves.length := by
        have hmul := (Nat.le_div_iff_mul_le (Nat.two_pow_pos level)).1 hbelow
        have hpos := Nat.two_pow_pos level
        rw [Nat.succ_mul] at hmul
        omega
      refine (hrest _ fun a ha heq => ?_).trans ((h _ _).2 ⟨level, i, hlevel, hold, rfl, ?_⟩)
      · obtain ⟨rfl, rfl⟩ := encodeNodeKey_inj hi (sibling_lt hcap _).1 heq
        exact Nat.lt_irrefl _ hbelow
      · exact nodeOf_append (Nat.ne_of_gt hbelow)
    · exact hpath level hlevel

end StshProtocol.MerkleTree
