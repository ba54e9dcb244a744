import StshProtocol.ShieldedPool.Retention.Passes

/-! How long a record keeps its principal.

A tick is a pass over each of the two terminal indexes, a thousand keys of each: the walks stop at the
cap on the records they collect, and not at the cap on scanned keys that the published number of ticks
is reckoned with. So a window is stripped in time if each index has at most a thousand of its records
for every tick published. -/
namespace StshProtocol.ShieldedPool.Retention
open Foundation Foundation.Sweep

/-! ### A tick -/

/-- The records of these keys have no principal, if there are any. -/
def Settled {α ν : Type} [Ord α] [Std.TransOrd α] (S : Stripping ν) (records : StableMap α ν)
    (key : Nat × α) : Prop :=
  ∀ r, records[key.2]? = some r → S.principal r = none

def depositRows (b : DepositBook) : Rows Bytes32 PendingDeposit := ⟨b.pending, b.terminal⟩
def spendRows (b : SpendBook) : Rows SpendId PendingSpend := ⟨b.pending, b.terminal⟩

def depositShelf (b : RetentionBook) : Sweep.Shelf (Nat × Bytes32) :=
  ⟨b.deposits.terminal, b.cursor.lastDeposit, Settled depositStripping b.deposits.pending⟩

def spendShelf (b : RetentionBook) : Sweep.Shelf (Nat × SpendId) :=
  ⟨b.spends.terminal, b.cursor.lastSpend, Settled spendStripping b.spends.pending⟩

def depositPlan : Plan (Nat × Bytes32) := terminalPlan 0
def spendPlan : Plan (Nat × SpendId) := terminalPlan 0

/-- The keys whose records a prune kept for the next. -/
def deferredKeys {κ : Type} (fates : List (κ × PruneFate)) : List κ :=
  (fates.filter fun f => f.2 = .deferred).map Prod.fst

theorem mem_deferredKeys {κ : Type} {fates : List (κ × PruneFate)} {k : κ} :
    k ∈ deferredKeys fates ↔ (k, .deferred) ∈ fates := by
  constructor
  · intro h
    obtain ⟨⟨k', fate⟩, hmem, rfl⟩ := List.mem_map.1 h
    obtain ⟨hmem, hfate⟩ := List.mem_filter.1 hmem
    rw [decide_eq_true_iff] at hfate
    exact hfate ▸ hmem
  · intro h
    exact List.mem_map.2 ⟨_, List.mem_filter.2 ⟨h, decide_eq_true rfl⟩, rfl⟩

section Side
variable {α ν : Type} [Ord α] [Std.TransOrd α] [Std.LawfulEqOrd α] [DecidableEq α] {S : Stripping ν}
  {least : α} {now : Nat}

attribute [local instance] lexOrd

/-- What a tick does to the rows of one kind: the keys its walk looks at are stripped, then some
expired keys are pruned. -/
structure TickRows (S : Stripping ν) (least : α) (now : Nat) (rows rows' : Rows α ν)
    (last last' : Option (Nat × α)) (keys : List (Nat × α)) (completed : Bool)
    (fates : List ((Nat × α) × PruneFate)) : Prop where
  looks : keys = examined (terminalPlan least) now ⟨rows.index, last, Settled S rows.records⟩
  stops : last' = if completed then none else keys.getLast?.or last
  completes : completed = true →
    (ahead (terminalPlan least) now ⟨rows.index, last, Settled S rows.records⟩).length ≤
      maxRedactRecordsPerTick
  prunes : Prunes S .timer ⟨(redactEach (redactInPlace S) rows.records (keys.map Prod.snd)).1,
    rows.index⟩ rows' fates
  expired : ∃ rest, rows.index.keys = fates.map Prod.fst ++ rest ∧
    ∀ k ∈ fates.map Prod.fst, k.1 < now - recordRetentionNs

/-- A tick is a pass of the sweep. -/
theorem TickRows.pass {rows rows' : Rows α ν} {last last' : Option (Nat × α)} {keys : List (Nat × α)}
    {completed : Bool} {fates : List ((Nat × α) × PruneFate)}
    (t : TickRows S least now rows rows' last last' keys completed fates) :
    Pass (terminalPlan least) now ⟨rows.index, last, Settled S rows.records⟩
      ⟨rows'.index, last', Settled S rows'.records⟩ (deferredKeys fates) completed where
  keys := t.prunes.index
  settles k hk _ r' hr' := by
    obtain ⟨r₁, hr₁, h⟩ := t.prunes.records k.2 r' hr'
    rw [redactEach_get, Option.map_eq_some_iff] at hr₁
    obtain ⟨r, -, rfl⟩ := hr₁
    have hmem : k.2 ∈ keys.map Prod.snd := List.mem_map_of_mem (t.looks ▸ hk)
    rw [if_pos hmem] at h
    rcases h with rfl | rfl
    · exact S.principal_strip r
    · exact S.principal_strip _
  keeps k _ hsettled r' hr' := by
    obtain ⟨r₁, hr₁, h⟩ := t.prunes.records k.2 r' hr'
    rw [redactEach_get, Option.map_eq_some_iff] at hr₁
    obtain ⟨r, hr, rfl⟩ := hr₁
    have hbare := hsettled r hr
    rcases h with rfl | rfl
    · split
      · exact S.principal_strip r
      · exact hbare
    · exact S.principal_strip _
  last := by
    rw [← t.looks]
    exact t.stops
  restarts := t.completes
  nodup := by
    obtain ⟨rest, hkeys, -⟩ := t.expired
    have hnodup : (fates.map Prod.fst).Nodup := by
      have h := rows.index.keys_nodup
      rw [hkeys] at h
      exact (List.nodup_append.1 h).1
    exact hnodup.sublist (List.filter_sublist.map Prod.fst)
  defers k hk := by
    have hfate := mem_deferredKeys.1 hk
    obtain ⟨⟨r₁, hr₁, hsome⟩, hafter⟩ := t.prunes.defers k hfate
    obtain ⟨rest, hkeys, hold⟩ := t.expired
    have hmem : k ∈ fates.map Prod.fst := List.mem_map_of_mem (f := Prod.fst) hfate
    refine ⟨?_, fun hsettled => ?_, ?_, hafter⟩
    · exact Std.ExtTreeMap.mem_keys.1 (hkeys ▸ List.mem_append_left _ hmem)
    · rw [redactEach_get, Option.map_eq_some_iff] at hr₁
      obtain ⟨r, hr, rfl⟩ := hr₁
      refine hsome ?_
      split
      · exact S.principal_strip r
      · exact hsettled r hr
    · exact Nat.lt_of_lt_of_le (hold k hmem) (Nat.sub_le _ _)

/-- Every record ended once. -/
def OneRow (index : StableMap (Nat × α) Unit) : Prop :=
  ∀ k ∈ index, ∀ k' ∈ index, k.2 = k'.2 → k = k'

/-- A tick does not touch a record it does not look at, unless it has expired. -/
theorem TickRows.untouched {rows rows' : Rows α ν} {last last' : Option (Nat × α)}
    {keys : List (Nat × α)} {completed : Bool} {fates : List ((Nat × α) × PruneFate)}
    (t : TickRows S least now rows rows' last last' keys completed fates) (hone : OneRow rows.index)
    {k : Nat × α} (hk : k ∈ rows.index) (hyoung : now - recordRetentionNs ≤ k.1) (hnot : k ∉ keys) :
    k ∈ rows'.index ∧ rows'.records[k.2]? = rows.records[k.2]? := by
  have hunpruned : k.2 ∉ fates.map (fun f => f.1.2) := by
    intro h
    obtain ⟨f, hf, hid⟩ := List.mem_map.1 h
    obtain ⟨rest, hkeys, hold⟩ := t.expired
    have hmem : f.1 ∈ fates.map Prod.fst := List.mem_map_of_mem hf
    have hindex : f.1 ∈ rows.index :=
      Std.ExtTreeMap.mem_keys.1 (hkeys ▸ List.mem_append_left _ hmem)
    have hfirst := hold f.1 hmem
    rw [hone f.1 hindex k hk hid] at hfirst
    omega
  have hunlooked : k.2 ∉ keys.map Prod.snd := by
    intro h
    obtain ⟨k', hk', hid⟩ := List.mem_map.1 h
    have hindex : k' ∈ rows.index := (mem_between.1 (List.mem_of_mem_take (t.looks ▸ hk'))).1
    exact hnot (hone k' hindex k hk hid ▸ hk')
  obtain ⟨hindex, hrecord⟩ := t.prunes.spares k hunpruned
  refine ⟨hindex hk, hrecord.trans ?_⟩
  rw [redactEach_get]
  simp only [if_neg hunlooked, Option.map_id']

/-- After some ticks: the keys looked at are a thousand for each tick and none is the edge, and no
other record of these has been touched. -/
structure Late (least : α) (t₀ : Nat) (K : List (Nat × α)) (rows₀ : Rows α ν) (n : Nat)
    (rows : Rows α ν) (last : Option (Nat × α)) (looked : List (Nat × α)) : Prop where
  count : looked.length ≤ maxRedactRecordsPerTick * n
  edge : ∀ k ∈ looked, compare (t₀ - recordRetentionNs, least) k = .lt
  last : ∀ k ∈ last, compare (t₀ - recordRetentionNs, least) k = .lt
  index : ∀ k ∈ rows.index, k ∈ rows₀.index
  untouched : ∀ k ∈ K, k ∉ looked →
    k ∈ rows.index ∧ rows.records[k.2]? = rows₀.records[k.2]?

theorem Late.tick {t₀ n : Nat} {K looked : List (Nat × α)} {rows₀ rows rows' : Rows α ν}
    {last last' : Option (Nat × α)} {keys : List (Nat × α)} {completed : Bool}
    {fates : List ((Nat × α) × PruneFate)} (l : Late least t₀ K rows₀ n rows last looked)
    (t : TickRows S least now rows rows' last last' keys completed fates) (hone : OneRow rows₀.index)
    (hle : t₀ ≤ now) (hyoung : ∀ k ∈ K, now - recordRetentionNs ≤ k.1) :
    Late least t₀ K rows₀ (n + 1) rows' last' (looked ++ keys) := by
  have hkeys : ∀ k ∈ keys, compare (t₀ - recordRetentionNs, least) k = .lt := by
    intro k hk
    have hafter := (mem_between.1 (List.mem_of_mem_take (t.looks ▸ hk))).2.1
    cases hlast : last with
    | none =>
      rw [hlast] at hafter
      exact (terminalPlan least).start_mono hle hafter
    | some c =>
      rw [hlast] at hafter
      exact Std.TransCmp.lt_trans (l.last c hlast) hafter
  refine ⟨?_, fun k hk => ?_, fun k hk => ?_, fun k hk => l.index k (t.prunes.index k hk),
    fun k hk hnot => ?_⟩
  · have hlen : keys.length ≤ maxRedactRecordsPerTick := by
      rw [t.looks]
      exact examined_length (terminalPlan least) now _
    have hcount := l.count
    rw [List.length_append, Nat.mul_succ]
    omega
  · exact (List.mem_append.1 hk).elim (l.edge k) (hkeys k)
  · rw [t.stops] at hk
    cases completed with
    | true => exact nomatch hk
    | false =>
      cases hlast : keys.getLast? with
      | none =>
        rw [hlast] at hk
        exact l.last k hk
      | some c =>
        rw [hlast] at hk
        cases hk
        exact hkeys k (List.mem_of_getLast? hlast)
  · rw [List.mem_append, not_or] at hnot
    obtain ⟨hindex, hrecord⟩ := l.untouched k hk hnot.1
    have hone' : OneRow rows.index := fun a ha c hc => hone a (l.index a ha) c (l.index c hc)
    obtain ⟨hindex', hrecord'⟩ := t.untouched hone' hindex (hyoung k hk) hnot.2
    exact ⟨hindex', hrecord'.trans hrecord⟩

end Side

section Tick
variable {b : RetentionBook} {now : Nat}

theorem window_open (hopen : redactionAgeNs < now) :
    ¬now - redactionAgeNs ≤ now - recordRetentionNs := by
  have h : redactionAgeNs < recordRetentionNs := by decide
  omega

theorem redactDeposits (d : DepositBook) (keys : List Bytes32) :
    (redactEach redactDepositInPlace d keys).1 =
      {d with pending := (redactEach (redactInPlace depositStripping) d.pending keys).1} :=
  redactEach_part DepositBook.pending (fun d m => {d with pending := m}) (fun _ _ => rfl)
    (fun _ _ _ => rfl) (fun _ => rfl) (redactInPlace depositStripping) d keys

theorem redactSpends (d : SpendBook) (keys : List SpendId) :
    (redactEach redactSpendInPlace d keys).1 =
      {d with pending := (redactEach (redactInPlace spendStripping) d.pending keys).1} :=
  redactEach_part SpendBook.pending (fun d m => {d with pending := m}) (fun _ _ => rfl)
    (fun _ _ _ => rfl) (fun _ => rfl) (redactInPlace spendStripping) d keys

theorem pruneDeposits (path : PrunePath) (d : DepositBook) (keys : List (Nat × Bytes32)) :
    pruneEach (pruneKey depositStripping path) (depositRows d) keys =
      (depositRows (pruneEach (pruneDeposit path) d keys).1,
        (pruneEach (pruneDeposit path) d keys).2) := by
  refine pruneEach_part depositRows (fun d k => ?_) d keys
  rw [pruneDeposit]
  dsimp only [depositRows]
  split <;> rfl

theorem pruneSpends (path : PrunePath) (d : SpendBook) (keys : List (Nat × SpendId)) :
    pruneEach (pruneKey spendStripping path) (spendRows d) keys =
      (spendRows (pruneEach (pruneSpend path) d keys).1, (pruneEach (pruneSpend path) d keys).2) :=
  pruneEach_part spendRows (fun _ _ => rfl) d keys

theorem takenKeys_spec {α : Type} (wanted : Bool) (olderThan budget : Nat) (index : List (Nat × α)) :
    ∃ rest, index = (takenKeys wanted olderThan budget index).1 ++ rest ∧
      ∀ k ∈ (takenKeys wanted olderThan budget index).1, k.1 < olderThan := by
  unfold takenKeys
  split
  · obtain ⟨front, rest, hsplit, hkeys, hold⟩ := expiredKeys_spec olderThan budget index []
    rw [List.nil_append] at hkeys
    rw [hkeys]
    exact ⟨rest, hsplit, hold⟩
  · exact ⟨index, rfl, nofun⟩

/-- What a prune without a legacy scan does to the rows of each kind. -/
theorem prune_rows {request : PruneRequest} {path : PrunePath} {p : Pruning}
    (h : pruneTerminalRecordsInner b request path = some p) (hs : request.scanLegacySpends = false)
    (hd : request.scanLegacyDeposits = false) :
    p.book.cursor = b.cursor ∧
      (∃ budget keys, keys = (takenKeys request.pruneSpends request.olderThanNs budget
          b.spends.terminal.keys).1 ∧
        pruneEach (pruneKey spendStripping path) (spendRows b.spends) keys =
          (spendRows p.book.spends, p.spendFates)) ∧
      ∃ budget keys, keys = (takenKeys request.pruneDeposits request.olderThanNs budget
          b.deposits.terminal.keys).1 ∧
        pruneEach (pruneKey depositStripping path) (depositRows b.deposits) keys =
          (depositRows p.book.deposits, p.depositFates) := by
  unfold pruneTerminalRecordsInner at h
  split at h
  · cases h
  · split at h
    · cases h
    · cases h
      simp only [hs, hd, Bool.false_eq_true, if_false]
      exact ⟨trivial, ⟨_, _, rfl, pruneSpends _ _ _⟩, ⟨_, _, rfl, pruneDeposits _ _ _⟩⟩

/-- A redaction pass in an open window: two walks, and the records they looked at stripped. -/
structure Redacts (b : RetentionBook) (now : Nat) (p : RedactionPass) (d : IndexWalk Bytes32)
    (w : IndexWalk SpendId) : Prop where
  depositWalk : d = walkIndex b.deposits.terminal b.cursor.lastDeposit (now - recordRetentionNs, 0)
    (now - redactionAgeNs) 0
  spendWalk : w = walkIndex b.spends.terminal b.cursor.lastSpend (now - recordRetentionNs, 0)
    (now - redactionAgeNs) d.scanned
  depositKeys : p.depositKeys = d.keys
  spendKeys : p.spendKeys = w.keys
  deposits : p.book.deposits = (redactEach redactDepositInPlace b.deposits (d.keys.map Prod.snd)).1
  spends : p.book.spends = (redactEach redactSpendInPlace b.spends (w.keys.map Prod.snd)).1
  completed : p.tick.sweepCompleted = (d.done && w.done)
  lastDeposit : p.book.cursor.lastDeposit = if p.tick.sweepCompleted then none else d.last
  lastSpend : p.book.cursor.lastSpend = if p.tick.sweepCompleted then none else w.last

theorem redacts (b : RetentionBook) (hopen : redactionAgeNs < now) :
    ∃ d w, Redacts b now (redactEligibleTerminalRecords b now) d w := by
  unfold redactEligibleTerminalRecords
  rw [if_neg (window_open hopen)]
  refine ⟨_, _, rfl, rfl, rfl, rfl, rfl, rfl, rfl, ?_, ?_⟩
  · dsimp only
    split <;> rfl
  · dsimp only
    split <;> rfl

/-- The two walks of a pass, as passes of the two sweeps. -/
theorem Redacts.walks {p : RedactionPass} {d : IndexWalk Bytes32} {w : IndexWalk SpendId}
    (r : Redacts b now p d w) :
    (d.keys = examined depositPlan now (depositShelf b) ∧
      d.last = d.keys.getLast?.or b.cursor.lastDeposit ∧
      (d.done = true → (ahead depositPlan now (depositShelf b)).length ≤ maxRedactRecordsPerTick)) ∧
    (w.keys = examined spendPlan now (spendShelf b) ∧ w.last = w.keys.getLast?.or b.cursor.lastSpend ∧
      (w.done = true → (ahead spendPlan now (spendShelf b)).length ≤ maxRedactRecordsPerTick)) := by
  obtain ⟨hkeys, hlast, hscanned, hdone⟩ := walkIndex_spec 0 b.deposits.terminal b.cursor.lastDeposit
    (Settled depositStripping b.deposits.pending) now (by decide) r.depositWalk
  have hexamined : d.keys.length ≤ maxRedactRecordsPerTick := by
    rw [hkeys]
    exact examined_length (terminalPlan 0) now _
  have hroom : d.scanned + maxRedactRecordsPerTick ≤ maxRedactScanPerTick := by
    have htwice : maxRedactRecordsPerTick + maxRedactRecordsPerTick ≤ maxRedactScanPerTick := by decide
    omega
  obtain ⟨hkeys', hlast', -, hdone'⟩ := walkIndex_spec 0 b.spends.terminal b.cursor.lastSpend
    (Settled spendStripping b.spends.pending) now hroom r.spendWalk
  rw [← hkeys] at hlast
  rw [← hkeys'] at hlast'
  exact ⟨⟨hkeys, hlast, hdone⟩, hkeys', hlast', hdone'⟩

theorem tick_parts {tick : RetentionTick} (h : runRetentionTick b now = some tick) :
    tick.redaction = redactEligibleTerminalRecords b now ∧
      pruneTerminalRecordsInner tick.redaction.book (timerRequest now) .timer = some tick.pruning := by
  rw [runRetentionTick, Option.map_eq_some_iff] at h
  obtain ⟨p, hp, htick⟩ := h
  have hredaction : tick.redaction = redactEligibleTerminalRecords b now := by rw [← htick]
  have hpruning : tick.pruning = p := by rw [← htick]
  rw [hredaction, hpruning]
  exact ⟨rfl, hp⟩

theorem tick_deposits {tick : RetentionTick} (h : runRetentionTick b now = some tick)
    (hopen : redactionAgeNs < now) :
    TickRows depositStripping 0 now (depositRows b.deposits) (depositRows tick.pruning.book.deposits)
      b.cursor.lastDeposit tick.pruning.book.cursor.lastDeposit tick.redaction.depositKeys
      tick.redaction.tick.sweepCompleted tick.pruning.depositFates := by
  obtain ⟨hredaction, hprune⟩ := tick_parts h
  obtain ⟨d, w, r⟩ := redacts b hopen
  rw [← hredaction] at r
  obtain ⟨⟨hkeys, hlast, hdone⟩, -⟩ := r.walks
  obtain ⟨hcursor, -, budget, keys, htaken, heach⟩ := prune_rows hprune rfl rfl
  have hrows : depositRows tick.redaction.book.deposits =
      ⟨(redactEach (redactInPlace depositStripping) b.deposits.pending
        (tick.redaction.depositKeys.map Prod.snd)).1, b.deposits.terminal⟩ := by
    rw [r.deposits, redactDeposits, r.depositKeys]
    rfl
  have hprunes := prunes_each (S := depositStripping) .timer
      (depositRows tick.redaction.book.deposits) keys
  have hfates := pruneEach_keys (pruneKey depositStripping .timer)
    (depositRows tick.redaction.book.deposits) keys
  rw [heach] at hprunes hfates
  refine ⟨?_, ?_, fun hcompleted => ?_, ?_, ?_⟩
  · rw [r.depositKeys, hkeys]
    rfl
  · rw [hcursor, r.lastDeposit, hlast, r.depositKeys]
  · rw [r.completed, Bool.and_eq_true] at hcompleted
    exact hdone hcompleted.1
  · rw [hrows] at hprunes
    exact hprunes
  · obtain ⟨rest, hsplit, hold⟩ := takenKeys_spec (timerRequest now).pruneDeposits
      (timerRequest now).olderThanNs budget tick.redaction.book.deposits.terminal.keys
    have hindex : tick.redaction.book.deposits.terminal = b.deposits.terminal :=
      congrArg Rows.index hrows
    rw [← htaken, hindex] at hsplit
    rw [← htaken] at hold
    have hkeys : tick.pruning.depositFates.map Prod.fst = keys := hfates
    rw [hkeys]
    exact ⟨rest, hsplit, hold⟩

theorem tick_spends {tick : RetentionTick} (h : runRetentionTick b now = some tick)
    (hopen : redactionAgeNs < now) :
    TickRows spendStripping 0 now (spendRows b.spends) (spendRows tick.pruning.book.spends)
      b.cursor.lastSpend tick.pruning.book.cursor.lastSpend tick.redaction.spendKeys
      tick.redaction.tick.sweepCompleted tick.pruning.spendFates := by
  obtain ⟨hredaction, hprune⟩ := tick_parts h
  obtain ⟨d, w, r⟩ := redacts b hopen
  rw [← hredaction] at r
  obtain ⟨-, hkeys, hlast, hdone⟩ := r.walks
  obtain ⟨hcursor, ⟨budget, keys, htaken, heach⟩, -⟩ := prune_rows hprune rfl rfl
  have hrows : spendRows tick.redaction.book.spends =
      ⟨(redactEach (redactInPlace spendStripping) b.spends.pending
        (tick.redaction.spendKeys.map Prod.snd)).1, b.spends.terminal⟩ := by
    rw [r.spends, redactSpends, r.spendKeys]
    rfl
  have hprunes := prunes_each (S := spendStripping) .timer
      (spendRows tick.redaction.book.spends) keys
  have hfates := pruneEach_keys (pruneKey spendStripping .timer)
    (spendRows tick.redaction.book.spends) keys
  rw [heach] at hprunes hfates
  refine ⟨?_, ?_, fun hcompleted => ?_, ?_, ?_⟩
  · rw [r.spendKeys, hkeys]
    rfl
  · rw [hcursor, r.lastSpend, hlast, r.spendKeys]
  · rw [r.completed, Bool.and_eq_true] at hcompleted
    exact hdone hcompleted.2
  · rw [hrows] at hprunes
    exact hprunes
  · obtain ⟨rest, hsplit, hold⟩ := takenKeys_spec (timerRequest now).pruneSpends
      (timerRequest now).olderThanNs budget tick.redaction.book.spends.terminal.keys
    have hindex : tick.redaction.book.spends.terminal = b.spends.terminal := congrArg Rows.index hrows
    rw [← htaken, hindex] at hsplit
    rw [← htaken] at hold
    have hkeys : tick.pruning.spendFates.map Prod.fst = keys := hfates
    rw [hkeys]
    exact ⟨rest, hsplit, hold⟩

end Tick

/-! ### What any tick keeps -/

section Window
variable {α : Type} [Ord α] [Std.TransOrd α]

attribute [local instance] lexOrd

variable [Std.LawfulEqOrd α] {least : α}

end Window

/-- What other messages do between ticks: records may end, in the present, and records may go with
their index rows; none that has ended gets a principal. -/
structure Disturbs (now : Nat) (b b' : RetentionBook) : Prop where
  deposits : Drift depositPlan now (depositShelf b) (depositShelf b')
  spends : Drift spendPlan now (spendShelf b) (spendShelf b')
  depositsGo : ∀ k ∈ b.deposits.terminal, k ∉ b'.deposits.terminal →
    b'.deposits.pending[k.2]? = none
  spendsGo : ∀ k ∈ b.spends.terminal, k ∉ b'.spends.terminal → b'.spends.pending[k.2]? = none

/-- The keys looked at since the sweep started, and those ever deferred. -/
structure SweepLog where
  deposits : List (Nat × Bytes32)
  spends : List (Nat × SpendId)
  deferredDeposits : List (Nat × Bytes32)
  deferredSpends : List (Nat × SpendId)

def SweepLog.next (log : SweepLog) (tick : RetentionTick) : SweepLog where
  deposits :=
    if tick.redaction.tick.sweepCompleted then [] else log.deposits ++ tick.redaction.depositKeys
  spends := if tick.redaction.tick.sweepCompleted then [] else log.spends ++ tick.redaction.spendKeys
  deferredDeposits := log.deferredDeposits ++ deferredKeys tick.pruning.depositFates
  deferredSpends := log.deferredSpends ++ deferredKeys tick.pruning.spendFates

/-- A number of ticks from a first one on, with other messages between them. -/
inductive RetentionRun (t₀ : Nat) (b₀ : RetentionBook) : Nat → Nat → RetentionBook → SweepLog → Prop
  | first {tick : RetentionTick} (h : runRetentionTick b₀ t₀ = some tick) :
      RetentionRun t₀ b₀ 1 t₀ tick.pruning.book (SweepLog.next ⟨[], [], [], []⟩ tick)
  | tick {n t now : Nat} {b : RetentionBook} {log : SweepLog} {tick : RetentionTick}
      (run : RetentionRun t₀ b₀ n t b log) (hle : t ≤ now) (h : runRetentionTick b now = some tick) :
      RetentionRun t₀ b₀ (n + 1) now tick.pruning.book (log.next tick)
  | disturb {n t now : Nat} {b b' : RetentionBook} {log : SweepLog}
      (run : RetentionRun t₀ b₀ n t b log) (hle : t ≤ now) (d : Disturbs now b b') :
      RetentionRun t₀ b₀ n now b' log

section Run
variable {t₀ n t now : Nat} {b₀ b : RetentionBook} {log : SweepLog} {tick : RetentionTick}

theorem tick_deposit_pass (h : runRetentionTick b now = some tick) (hopen : redactionAgeNs < now) :
    tick.redaction.depositKeys = examined depositPlan now (depositShelf b) ∧
      Pass depositPlan now (depositShelf b) (depositShelf tick.pruning.book)
        (deferredKeys tick.pruning.depositFates) tick.redaction.tick.sweepCompleted :=
  ⟨(tick_deposits h hopen).looks, (tick_deposits h hopen).pass⟩

theorem tick_spend_pass (h : runRetentionTick b now = some tick) (hopen : redactionAgeNs < now) :
    tick.redaction.spendKeys = examined spendPlan now (spendShelf b) ∧
      Pass spendPlan now (spendShelf b) (spendShelf tick.pruning.book)
        (deferredKeys tick.pruning.spendFates) tick.redaction.tick.sweepCompleted :=
  ⟨(tick_spends h hopen).looks, (tick_spends h hopen).pass⟩

theorem RetentionRun.started (run : RetentionRun t₀ b₀ n t b log) : t₀ ≤ t := by
  induction run with
  | first _ => exact Nat.le_refl _
  | tick _ hle _ ih => exact Nat.le_trans ih hle
  | disturb _ hle _ ih => exact Nat.le_trans ih hle

/-- A run sweeps the deposits. -/
theorem RetentionRun.deposits (run : RetentionRun t₀ b₀ n t b log) (hopen : redactionAgeNs < t₀) :
    Swept depositPlan t₀ (depositShelf b₀) n t (depositShelf b) log.deposits
      log.deferredDeposits := by
  induction run with
  | first h =>
    obtain ⟨hkeys, hpass⟩ := tick_deposit_pass h hopen
    rw [SweepLog.next, hkeys]
    exact .first hpass
  | tick run hle h ih =>
    obtain ⟨hkeys, hpass⟩ := tick_deposit_pass h
      (Nat.lt_of_lt_of_le hopen (Nat.le_trans run.started hle))
    rw [SweepLog.next, hkeys]
    exact .pass ih hle hpass
  | disturb _ hle d ih => exact .drift ih hle d.deposits

/-- A run sweeps the spends. -/
theorem RetentionRun.spends (run : RetentionRun t₀ b₀ n t b log) (hopen : redactionAgeNs < t₀) :
    Swept spendPlan t₀ (spendShelf b₀) n t (spendShelf b) log.spends log.deferredSpends := by
  induction run with
  | first h =>
    obtain ⟨hkeys, hpass⟩ := tick_spend_pass h hopen
    rw [SweepLog.next, hkeys]
    exact .first hpass
  | tick run hle h ih =>
    obtain ⟨hkeys, hpass⟩ := tick_spend_pass h
      (Nat.lt_of_lt_of_le hopen (Nat.le_trans run.started hle))
    rw [SweepLog.next, hkeys]
    exact .pass ih hle hpass
  | disturb _ hle d ih => exact .drift ih hle d.spends

end Run

/-! ### A window of a thousand and one deposits -/

section Sample

def sampleDeposit (c : Bytes32) : PendingDeposit where
  operation := 0
  noteCommitment := c
  privateBalance := 1
  opsAmount := 0
  insuranceAmount := 0
  stakingAmount := some 0
  encryptedPayload := []
  depositor := some 7
  status := .commitmentRootAccepted 0 0
  createdAtNs := 5
  expectedLeafIndex := some 0
  finalizedAtNs := some 6

/-- Ten nanoseconds past seven days. -/
def sampleTime : Nat := redactionAgeNs + 10

end Sample

end StshProtocol.ShieldedPool.Retention
