import StshProtocol.Foundation.Sweep
import StshProtocol.ShieldedPool.Retention.Tick

/-! The parts of a retention tick.

The walk of an index looks at what a pass of its sweep looks at: the cap on the records it collects is
the one that stops it. Redaction strips the records looked at and changes nothing else of them; a
prune leaves a record as it is, stripped, or gone together with its index row, and on the timer's path
gone only if it has no principal. -/
namespace StshProtocol.ShieldedPool.Retention
open Foundation Foundation.Sweep

/-! ### The sweep of an index -/

section Plan
variable {α : Type} [Ord α]

theorem lex_lt_iff {a b : Nat × α} :
    (lexOrd : Ord (Nat × α)).compare a b = .lt ↔ a.1 < b.1 ∨ a.1 = b.1 ∧ compare a.2 b.2 = .lt := by
  show ((compare a.1 b.1).then (compare a.2 b.2)) = .lt ↔ _
  rw [Ordering.then_eq_lt, Nat.compare_eq_lt, Nat.compare_eq_eq]

theorem redactionAgeNs_pos : 0 < redactionAgeNs := by
  decide

/-- The retention sweep of a terminal index: what ended seven to thirty days ago, a thousand at a
tick. -/
def terminalPlan (least : α) : @Plan (Nat × α) lexOrd :=
  letI : Ord (Nat × α) := lexOrd
  { time := Prod.fst
    mono := fun h => by
      rcases lex_lt_iff.1 h with h | h
      · exact Nat.le_of_lt h
      · exact Nat.le_of_eq h.1
    cap := maxRedactRecordsPerTick
    cap_pos := Nat.zero_lt_succ 999
    start := fun now => (now - recordRetentionNs, least)
    start_mono := fun {t now k} hle h => by
      have hsub : t - recordRetentionNs ≤ now - recordRetentionNs := Nat.sub_le_sub_right hle _
      refine lex_lt_iff.2 ?_
      rcases lex_lt_iff.1 h with h | ⟨heq, h⟩
      · exact Or.inl (Nat.lt_of_le_of_lt hsub h)
      · rcases Nat.lt_or_eq_of_le hsub with hlt | hsame
        · exact Or.inl (Nat.lt_of_lt_of_eq hlt heq)
        · exact Or.inr ⟨hsame.trans heq, h⟩
    newest := fun now => now - redactionAgeNs
    newest_mono := fun hle => Nat.sub_le_sub_right hle _
    opens := redactionAgeNs + 1
    newest_lt := fun h => Nat.sub_lt (Nat.lt_of_lt_of_le (Nat.succ_pos _) h) redactionAgeNs_pos }

end Plan

/-! ### A walk -/

section Walk
variable {α : Type} {newest : Nat}

/-- What a walk over keys in the order of time collects: the next of those in the window, as many as
the cap on records allows, the cap on scanned keys being further off. -/
theorem walkKeys_spec {L : List (Nat × α)} (hsorted : L.Pairwise fun a b => a.1 ≤ b.1)
    {w : IndexWalk α} (hlen : w.keys.length ≤ maxRedactRecordsPerTick)
    (hscan : w.scanned + maxRedactRecordsPerTick ≤ maxRedactScanPerTick + w.keys.length)
    {E : List (Nat × α)} (hE : E = L.filter fun k => decide (k.1 ≤ newest)) {m : Nat}
    (hm : m = maxRedactRecordsPerTick - w.keys.length) :
    (walkKeys newest L w).keys = w.keys ++ E.take m ∧
      (walkKeys newest L w).last = (E.take m).getLast?.or w.last ∧
      (walkKeys newest L w).scanned = w.scanned + (E.take m).length ∧
      ((walkKeys newest L w).done = true → E.length ≤ m) := by
  subst hE hm
  induction L generalizing w with
  | nil => simp [walkKeys]
  | cons key L ih =>
    rw [List.pairwise_cons] at hsorted
    rw [walkKeys]
    by_cases hnew : newest < key.1
    · have hnone : (key :: L).filter (fun k => decide (k.1 ≤ newest)) = [] := by
        refine List.filter_eq_nil_iff.2 fun k hk => ?_
        rw [decide_eq_true_iff]
        rcases List.mem_cons.1 hk with rfl | hk
        · omega
        · have := hsorted.1 k hk
          omega
      rw [if_pos hnew, hnone]
      simp
    · have hcons : (key :: L).filter (fun k => decide (k.1 ≤ newest)) =
          key :: L.filter (fun k => decide (k.1 ≤ newest)) :=
        List.filter_cons_of_pos (by rw [decide_eq_true_iff]; omega)
      rw [if_neg hnew, hcons]
      by_cases hcap : w.keys.length = maxRedactRecordsPerTick
      · rw [if_pos (Or.inr (Nat.le_of_eq hcap.symm)), hcap, Nat.sub_self]
        simp
      · have hroom : ¬(maxRedactScanPerTick ≤ w.scanned ∨
            maxRedactRecordsPerTick ≤ w.keys.length) := by
          omega
        rw [if_neg hroom]
        have hgrown : (w.keys ++ [key]).length = w.keys.length + 1 := List.length_append
        have hscan' : w.scanned + 1 + maxRedactRecordsPerTick ≤
            maxRedactScanPerTick + (w.keys ++ [key]).length := by
          rw [hgrown]
          omega
        have hrest := ih hsorted.2 (w := ⟨w.keys ++ [key], w.scanned + 1, some key, w.done⟩)
          (by rw [hgrown]; omega) hscan'
        obtain ⟨hkeys, hlast, hscanned, hdone⟩ := hrest
        dsimp only at hkeys hlast hscanned hdone
        have hm : maxRedactRecordsPerTick - w.keys.length =
            maxRedactRecordsPerTick - (w.keys ++ [key]).length + 1 := by
          rw [hgrown]
          omega
        rw [hm, List.take_succ_cons]
        refine ⟨?_, ?_, ?_, fun h => ?_⟩
        · rw [hkeys, List.append_assoc]
          rfl
        · rw [hlast, List.getLast?_cons]
          cases (List.take _ _).getLast? <;> rfl
        · rw [hscanned, List.length_cons]
          omega
        · have := hdone h
          rw [List.length_cons]
          omega

attribute [local instance] lexOrd

variable [Ord α] [Std.TransOrd α] [Std.LawfulEqOrd α]

omit [Std.LawfulEqOrd α] in
theorem between_eq (least : α) (m : StableMap (Nat × α) Unit) (after : Nat × α) (newest : Nat) :
    between (terminalPlan least) m after newest =
      ((m.entriesAfter (some after)).map Prod.fst).filter fun k => decide (k.1 ≤ newest) := by
  rw [between, StableMap.entriesAfter, ← Std.ExtTreeMap.map_fst_toList_eq_keys, List.filter_map,
    List.filter_map, List.filter_filter]
  congr 1
  refine List.filter_congr fun e _ => ?_
  exact Bool.and_comm _ _

omit [Std.LawfulEqOrd α] in
/-- The walk of an index looks at what a pass of its sweep looks at. -/
theorem walkIndex_spec (least : α) (index : StableMap (Nat × α) Unit) (last : Option (Nat × α))
    (settled : Nat × α → Prop) (now : Nat) {scanned : Nat}
    (hscan : scanned + maxRedactRecordsPerTick ≤ maxRedactScanPerTick) {w : IndexWalk α}
    (hw : w = walkIndex index last (now - recordRetentionNs, least) (now - redactionAgeNs) scanned) :
    w.keys = examined (terminalPlan least) now ⟨index, last, settled⟩ ∧
      w.last = (examined (terminalPlan least) now ⟨index, last, settled⟩).getLast?.or last ∧
      w.scanned = scanned + w.keys.length ∧
      (w.done = true → (ahead (terminalPlan least) now ⟨index, last, settled⟩).length ≤
        maxRedactRecordsPerTick) := by
  have hsorted : ((index.entriesAfter (some (last.getD (now - recordRetentionNs, least)))).map
      Prod.fst).Pairwise fun a b => a.1 ≤ b.1 := by
    rw [List.pairwise_map]
    exact (index.entriesAfter_sorted _).imp fun h => (terminalPlan least).mono h
  have hahead : ahead (terminalPlan least) now ⟨index, last, settled⟩ = _ :=
    between_eq least index _ (now - redactionAgeNs)
  obtain ⟨hkeys, hlast, hscanned, hdone⟩ := walkKeys_spec hsorted
    (w := ⟨[], scanned, last, true⟩) (Nat.zero_le _) hscan hahead rfl
  subst hw
  rw [List.nil_append] at hkeys
  have hexamined : (walkIndex index last (now - recordRetentionNs, least) (now - redactionAgeNs)
      scanned).keys = examined (terminalPlan least) now ⟨index, last, settled⟩ := hkeys
  refine ⟨hexamined, hlast, ?_, hdone⟩
  rw [hexamined]
  exact hscanned

end Walk

/-! ### Redaction -/

section Redact
variable {α ν : Type} [Ord α] [Std.TransOrd α] [Std.LawfulEqOrd α] [DecidableEq α] {S : Stripping ν}

theorem Stripping.strip_strip (S : Stripping ν) (r : ν) : S.strip (S.strip r) = S.strip r :=
  S.strip_of_none _ (S.principal_strip r)

/-- The record redacted is stripped, and no other is touched. -/
theorem redactInPlace_get (m : StableMap α ν) (id a : α) :
    (redactInPlace S m id).1[a]? = (m[a]?).map fun r => if a = id then S.strip r else r := by
  unfold redactInPlace
  cases hid : m[id]? with
  | none =>
    by_cases ha : a = id
    · subst ha
      simp only [hid, Option.map_none]
    · simp only [if_neg ha, Option.map_id']
  | some record =>
    dsimp only
    split
    · rw [StableMap.get_insert_at]
      by_cases ha : a = id
      · subst ha
        simp only [hid, if_true, Option.map_some]
      · simp only [if_neg ha, Option.map_id']
    · next hnone =>
      by_cases ha : a = id
      · subst ha
        have hstrip := S.strip_of_none record (by simpa using hnone)
        simp only [hid, if_true, Option.map_some, hstrip]
      · simp only [if_neg ha, Option.map_id']

omit [Std.LawfulEqOrd α] [DecidableEq α] in
theorem redactInPlace_carried {m : StableMap α ν} {id : α} (h : (redactInPlace S m id).2 = true) :
    ∃ r, m[id]? = some r ∧ S.principal r ≠ none := by
  unfold redactInPlace at h
  split at h
  · next r hr =>
    split at h
    · next hsome => exact ⟨r, hr, Option.isSome_iff_ne_none.1 hsome⟩
    · exact nomatch h
  · exact nomatch h

omit [Std.LawfulEqOrd α] [DecidableEq α] in
theorem redactInPlace_not_carried {m : StableMap α ν} {id : α} {r : ν}
    (h : (redactInPlace S m id).2 ≠ true) (hr : m[id]? = some r) : S.principal r = none := by
  unfold redactInPlace at h
  simp only [hr] at h
  split at h
  · exact absurd rfl h
  · next hnone => simpa using hnone

theorem redactEach_cons {σ κ : Type} (redact : σ → κ → σ × Bool) (b : σ) (key : κ) (keys : List κ) :
    (redactEach redact b (key :: keys)).1 = (redactEach redact (redact b key).1 keys).1 := by
  have hcount : ∀ (keys : List κ) (b : σ) (n m : Nat),
      (keys.foldl (fun acc key => ((redact acc.1 key).1,
        if (redact acc.1 key).2 then acc.2 + 1 else acc.2)) (b, n)).1 =
      (keys.foldl (fun acc key => ((redact acc.1 key).1,
        if (redact acc.1 key).2 then acc.2 + 1 else acc.2)) (b, m)).1 := by
    intro keys
    induction keys with
    | nil => intros; rfl
    | cons k keys ih => intro b n m; exact ih _ _ _
  exact hcount keys _ _ _

/-- The records redacted are stripped, and no others are touched. -/
theorem redactEach_get (m : StableMap α ν) (ids : List α) (a : α) :
    (redactEach (redactInPlace S) m ids).1[a]? =
      (m[a]?).map fun r => if a ∈ ids then S.strip r else r := by
  induction ids generalizing m with
  | nil => simp [redactEach]
  | cons id ids ih =>
    rw [redactEach_cons, ih, redactInPlace_get, Option.map_map]
    congr 1
    funext r
    by_cases ha : a = id
    · subst ha
      simp only [Function.comp_apply, if_true, List.mem_cons_self, S.strip_strip, ite_self]
    · simp only [Function.comp_apply, List.mem_cons, ha, false_or, if_false]

/-- Redacting part of a book is redacting that part. -/
theorem redactEach_part {σ τ κ : Type} (part : σ → τ) (put : σ → τ → σ)
    (hpart : ∀ b m, part (put b m) = m) (hput : ∀ b m m', put (put b m) m' = put b m')
    (hsame : ∀ b, put b (part b) = b) (redact : τ → κ → τ × Bool) (b : σ) (keys : List κ) :
    (redactEach (fun b k => (put b (redact (part b) k).1, (redact (part b) k).2)) b keys).1 =
      put b (redactEach redact (part b) keys).1 := by
  induction keys generalizing b with
  | nil => exact (hsame b).symm
  | cons k keys ih => rw [redactEach_cons, redactEach_cons, ih, hpart, hput]

end Redact

/-! ### Pruning -/

section Prune
variable {α ν : Type} [Ord α] [Std.TransOrd α] [Ord (Nat × α)] [Std.TransOrd (Nat × α)]
  {S : Stripping ν} {path : PrunePath} {rows rows₁ rows' : Rows α ν} {fates : List ((Nat × α) × PruneFate)}
  {keys : List (Nat × α)}

/-- The records left are as they were or stripped, and an index row goes with its record only. -/
structure Shrinks (S : Stripping ν) (rows rows' : Rows α ν) : Prop where
  index : ∀ k ∈ rows'.index, k ∈ rows.index
  records : ∀ (a : α) (r' : ν), rows'.records[a]? = some r' →
    ∃ r, rows.records[a]? = some r ∧ (r' = r ∨ r' = S.strip r)
  goes : ∀ k ∈ rows.index, k ∉ rows'.index → rows'.records[k.2]? = none

/-- What a prune does to the rows; on the timer's path no record goes that still has a principal. -/
structure Prunes (S : Stripping ν) (path : PrunePath) (rows rows' : Rows α ν)
    (fates : List ((Nat × α) × PruneFate)) : Prop extends Shrinks S rows rows' where
  noted : ∀ (a : α) (r : ν), rows.records[a]? = some r → rows'.records[a]? = none →
    ∃ k p, (k, .removed p) ∈ fates ∧ k.2 = a
  bare : path = .timer → ∀ k p, (k, .removed p) ∈ fates → p = none
  defers : ∀ k, (k, .deferred) ∈ fates →
    (∃ r, rows.records[k.2]? = some r ∧ S.principal r ≠ none) ∧
      ∀ r', rows'.records[k.2]? = some r' → S.principal r' = none
  spares : ∀ k : Nat × α, k.2 ∉ fates.map (fun f => f.1.2) →
    (k ∈ rows.index → k ∈ rows'.index) ∧ rows'.records[k.2]? = rows.records[k.2]?

theorem Shrinks.refl : Shrinks S rows rows where
  index _ h := h
  records _ r' h := ⟨r', h, Or.inl rfl⟩
  goes _ h hn := absurd h hn

theorem Shrinks.trans (h₁ : Shrinks S rows rows₁) (h₂ : Shrinks S rows₁ rows') :
    Shrinks S rows rows' where
  index k hk := h₁.index k (h₂.index k hk)
  records a r' h := by
    obtain ⟨r₁, hr₁, h₁₂⟩ := h₂.records a r' h
    obtain ⟨r, hr, h₀₁⟩ := h₁.records a r₁ hr₁
    refine ⟨r, hr, ?_⟩
    rcases h₁₂ with rfl | rfl
    · exact h₀₁
    · rcases h₀₁ with rfl | rfl
      · exact Or.inr rfl
      · exact Or.inr (S.strip_strip r)
  goes k hk hn := by
    by_cases hmid : k ∈ rows₁.index
    · exact h₂.goes k hmid hn
    · have hgone := h₁.goes k hk hmid
      cases hr : rows'.records[k.2]? with
      | none => rfl
      | some r' =>
        obtain ⟨r₁, hr₁, -⟩ := h₂.records _ _ hr
        exact nomatch hgone.symm.trans hr₁

theorem Prunes.refl : Prunes S path rows rows [] where
  toShrinks := .refl
  noted _ _ h hn := nomatch h.symm.trans hn
  bare _ _ _ h := nomatch h
  defers _ h := nomatch h
  spares _ _ := ⟨id, rfl⟩

theorem Prunes.trans {fate : List ((Nat × α) × PruneFate)} (h₁ : Prunes S path rows rows₁ fate)
    (h₂ : Prunes S path rows₁ rows' fates) : Prunes S path rows rows' (fate ++ fates) where
  toShrinks := h₁.toShrinks.trans h₂.toShrinks
  noted a r hr hn := by
    cases hmid : rows₁.records[a]? with
    | none =>
      obtain ⟨k, p, hk, ha⟩ := h₁.noted a r hr hmid
      exact ⟨k, p, List.mem_append_left _ hk, ha⟩
    | some r₁ =>
      obtain ⟨k, p, hk, ha⟩ := h₂.noted a r₁ hmid hn
      exact ⟨k, p, List.mem_append_right _ hk, ha⟩
  bare hpath k p h := by
    rcases List.mem_append.1 h with h | h
    · exact h₁.bare hpath k p h
    · exact h₂.bare hpath k p h
  defers k h := by
    rcases List.mem_append.1 h with h | h
    · refine ⟨(h₁.defers k h).1, fun r' hr' => ?_⟩
      obtain ⟨r₁, hr₁, h₁₂⟩ := h₂.records _ _ hr'
      rcases h₁₂ with rfl | rfl
      · exact (h₁.defers k h).2 _ hr₁
      · exact S.principal_strip r₁
    · obtain ⟨⟨r₁, hr₁, hsome⟩, hafter⟩ := h₂.defers k h
      obtain ⟨r, hr, h₀₁⟩ := h₁.records _ _ hr₁
      rcases h₀₁ with rfl | rfl
      · exact ⟨⟨_, hr, hsome⟩, hafter⟩
      · exact absurd (S.principal_strip r) hsome
  spares k h := by
    rw [List.map_append, List.mem_append, not_or] at h
    obtain ⟨hindex₁, hrecord₁⟩ := h₁.spares k h.1
    obtain ⟨hindex₂, hrecord₂⟩ := h₂.spares k h.2
    exact ⟨fun hk => hindex₂ (hindex₁ hk), hrecord₂.trans hrecord₁⟩

variable [Std.LawfulEqOrd α] [DecidableEq α] [Std.LawfulEqOrd (Nat × α)]

theorem prunes_key (key : Nat × α) :
    Prunes S path rows (pruneKey S path rows key).1 [(key, (pruneKey S path rows key).2)] := by
  unfold pruneKey
  dsimp only
  split
  · next hdefer =>
    obtain ⟨r, hr, hsome⟩ := redactInPlace_carried hdefer.2
    refine ⟨⟨fun _ h => h, fun a r' h => ?_, fun _ h hn => absurd h hn⟩, fun a r₀ h hn => ?_,
      fun _ k p h => ?_, fun k h => ?_, fun k h => ⟨fun hk => hk, ?_⟩⟩
    · rw [redactInPlace_get, Option.map_eq_some_iff] at h
      obtain ⟨r₀, hr₀, rfl⟩ := h
      refine ⟨r₀, hr₀, ?_⟩
      split
      · exact Or.inr rfl
      · exact Or.inl rfl
    · rw [redactInPlace_get, h] at hn
      exact nomatch hn
    · exact nomatch (Prod.mk.inj (List.mem_singleton.1 h)).2
    · obtain ⟨rfl, -⟩ := Prod.mk.inj (List.mem_singleton.1 h)
      refine ⟨⟨r, hr, hsome⟩, fun r' h => ?_⟩
      rw [redactInPlace_get, hr, Option.map_some, if_pos rfl] at h
      cases h
      exact S.principal_strip r
    · have hne : k.2 ≠ key.2 := fun heq => h (List.mem_singleton.2 heq)
      rw [redactInPlace_get]
      simp only [if_neg hne, Option.map_id']
  · next hkeep =>
    refine ⟨⟨fun k h => ?_, fun a r' h => ?_, fun k h hn => ?_⟩, fun a r h hn => ?_,
      fun hpath k p h => ?_, fun k h => ?_, fun k h => ?_⟩
    · rw [Std.ExtTreeMap.mem_erase] at h
      exact h.2
    · rw [StableMap.get_erase] at h
      split at h
      · exact nomatch h
      · exact ⟨r', h, Or.inl rfl⟩
    · have hkey : k = key := by
        by_contra hne
        refine hn (Std.ExtTreeMap.mem_erase.2 ⟨?_, h⟩)
        intro heq
        exact hne (Std.LawfulEqCmp.eq_of_compare heq).symm
      rw [hkey, StableMap.get_erase, if_pos rfl]
    · rw [StableMap.get_erase] at hn
      split at hn
      · next ha =>
        subst ha
        refine ⟨key, S.principal r, ?_, rfl⟩
        rw [h]
        exact List.mem_singleton_self _
      · exact nomatch h.symm.trans hn
    · obtain ⟨rfl, hfate⟩ := Prod.mk.inj (List.mem_singleton.1 h)
      cases hr : rows.records[k.2]? with
      | none =>
        rw [hr] at hfate
        exact nomatch hfate
      | some r =>
        rw [hr] at hfate
        cases hfate
        exact redactInPlace_not_carried (fun hc => hkeep ⟨hpath, hc⟩) hr
    · obtain ⟨-, hfate⟩ := Prod.mk.inj (List.mem_singleton.1 h)
      cases hr : rows.records[key.2]? with
      | none =>
        rw [hr] at hfate
        exact nomatch hfate
      | some r =>
        rw [hr] at hfate
        exact nomatch hfate
    · have hne : key.2 ≠ k.2 := fun heq => h (List.mem_singleton.2 heq.symm)
      refine ⟨fun hk => Std.ExtTreeMap.mem_erase.2 ⟨fun heq => hne ?_, hk⟩, ?_⟩
      · rw [Std.LawfulEqCmp.eq_of_compare heq]
      · rw [StableMap.get_erase, if_neg hne]

theorem pruneEach_cons {σ κ : Type} (prune : σ → κ → σ × PruneFate) (b : σ) (key : κ)
    (keys : List κ) :
    pruneEach prune b (key :: keys) =
      ((pruneEach prune (prune b key).1 keys).1,
        (key, (prune b key).2) :: (pruneEach prune (prune b key).1 keys).2) := by
  have hpast : ∀ (keys : List κ) (b : σ) (past : List (κ × PruneFate)),
      keys.foldl (fun acc key => ((prune acc.1 key).1, acc.2 ++ [(key, (prune acc.1 key).2)]))
          (b, past) =
        ((pruneEach prune b keys).1, past ++ (pruneEach prune b keys).2) := by
    intro keys
    induction keys with
    | nil => intro b past; exact Prod.ext rfl (List.append_nil past).symm
    | cons k keys ih =>
      intro b past
      have hfirst : pruneEach prune b (k :: keys) = _ := ih (prune b k).1 [(k, (prune b k).2)]
      rw [List.foldl_cons, ih, hfirst, List.append_assoc]
  exact hpast keys _ _

theorem prunes_each (path : PrunePath) (rows : Rows α ν) (keys : List (Nat × α)) :
    Prunes S path rows (pruneEach (pruneKey S path) rows keys).1
      (pruneEach (pruneKey S path) rows keys).2 := by
  induction keys generalizing rows with
  | nil => exact Prunes.refl
  | cons key keys ih =>
    rw [pruneEach_cons]
    exact (prunes_key key).trans (ih _)

theorem pruneEach_keys {σ κ : Type} (prune : σ → κ → σ × PruneFate) (b : σ) (keys : List κ) :
    (pruneEach prune b keys).2.map Prod.fst = keys := by
  induction keys generalizing b with
  | nil => rfl
  | cons key keys ih => rw [pruneEach_cons, List.map_cons, ih]

/-- Pruning a book prunes its rows. -/
theorem pruneEach_part {σ τ κ : Type} (part : σ → τ) {prune : σ → κ → σ × PruneFate}
    {pruneRows : τ → κ → τ × PruneFate}
    (hpart : ∀ b k, pruneRows (part b) k = (part (prune b k).1, (prune b k).2)) (b : σ)
    (keys : List κ) : pruneEach pruneRows (part b) keys =
      (part (pruneEach prune b keys).1, (pruneEach prune b keys).2) := by
  induction keys generalizing b with
  | nil => rfl
  | cons key keys ih => rw [pruneEach_cons, pruneEach_cons, hpart, ih]

omit [Ord α] [Std.TransOrd α] [Ord (Nat × α)] [Std.TransOrd (Nat × α)] [Std.LawfulEqOrd α]
  [DecidableEq α] [Std.LawfulEqOrd (Nat × α)] in
/-- The keys a prune takes are the first there are, and expired. -/
theorem expiredKeys_spec (olderThan budget : Nat) (L taken : List (Nat × α)) :
    ∃ front rest, L = front ++ rest ∧ (expiredKeys olderThan budget L taken).1 = taken ++ front ∧
      ∀ k ∈ front, k.1 < olderThan := by
  induction L generalizing taken with
  | nil => exact ⟨[], [], rfl, (List.append_nil _).symm, nofun⟩
  | cons key L ih =>
    rw [expiredKeys]
    split
    · exact ⟨[], _, rfl, (List.append_nil _).symm, nofun⟩
    · next hyoung =>
      split
      · exact ⟨[], _, rfl, (List.append_nil _).symm, nofun⟩
      · obtain ⟨front, rest, rfl, hkeys, hold⟩ := ih (taken ++ [key])
        refine ⟨key :: front, rest, rfl, ?_, List.forall_mem_cons.2 ⟨by omega, hold⟩⟩
        rw [hkeys, List.append_assoc]
        rfl

end Prune

end StshProtocol.ShieldedPool.Retention
