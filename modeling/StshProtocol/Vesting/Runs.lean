import StshProtocol.Vesting.Accounts
import Mathlib.Data.List.Nodup

/-! Every run of the vesting canister pays what has vested, once.

What a beneficiary has claimed is what its executed operations came to and the amount of the
one that is not resolved; of that one the ledger has the transfer under way, or carried out,
or neither, and never both. -/
namespace StshProtocol.Vesting
open Foundation ShieldedPool VestingState

/-! ### The ledger -/

/-- The transfer of this operation was carried out. -/
def Executed (l : Ledger) (b : PrincipalBytes) (seq : Nat) : Prop :=
  ∃ a, Block.own a ∈ l.blocks ∧ a.memo = some (claimMemo b seq)

/-- What a block pays to a beneficiary. -/
def payment (b : PrincipalBytes) : Block → Nat
  | .own a => if a.dest = ⟨b.toPrincipal, none⟩ then a.amount else 0
  | .foreign => 0

/-- The tokens paid to a beneficiary. -/
def paid (l : Ledger) (b : PrincipalBytes) : Nat := (l.blocks.map (payment b)).sum

/-- Call `t` is under way. -/
def sent (l : Ledger) (t : Nat) (q : LedgerCall) : Ledger :=
  {l with inFlight := Function.update l.inFlight t (some q)}

/-- Call `t` is a transfer to the beneficiary that may still be carried out. -/
def Owes (l : Ledger) (t : Nat) (b : PrincipalBytes) : Prop :=
  ∃ o : Operation, l.inFlight t = some (.icrc1Transfer (o.transfer b))

section Transfers
variable {o p : Operation} {b c : PrincipalBytes}

theorem transfer_payee (h : o.transfer b = p.transfer c) : b = c :=
  toPrincipal_inj (congrArg (fun a => a.dest.owner) h)

theorem payment_transfer (o : Operation) (b c : PrincipalBytes) :
    payment c (.own (o.transfer b)) = if c = b then o.amount else 0 := by
  rw [payment]
  refine ite_congr (propext ⟨fun h => ?_, ?_⟩) (fun _ => rfl) fun _ => rfl
  · exact (toPrincipal_inj (congrArg IcrcAccount.owner h)).symm
  · rintro rfl
    rfl

end Transfers

theorem paid_append (l : Ledger) (block : Block) (b : PrincipalBytes) :
    paid {l with blocks := l.blocks ++ [block]} b = paid l b + payment b block := by
  simp [paid]

/-- A block that is not of this operation does not carry it out. -/
theorem executed_append {l : Ledger} {block : Block} {b : PrincipalBytes} {seq : Nat}
    (h : ∀ a, block = .own a → a.memo ≠ some (claimMemo b seq)) :
    Executed {l with blocks := l.blocks ++ [block]} b seq ↔ Executed l b seq := by
  constructor
  · rintro ⟨a, ha, hmemo⟩
    rcases List.mem_append.1 ha with ha | ha
    · exact ⟨a, ha, hmemo⟩
    · exact absurd hmemo (h a (List.mem_singleton.1 ha).symm)
  · rintro ⟨a, ha, hmemo⟩
    exact ⟨a, List.mem_append_left _ ha, hmemo⟩

/-! ### The invariant -/

/-- The amount of the operation that is not resolved. -/
def Account.outstanding (a : Account) : Nat := (a.marker.bind (·.pendingAmount)).getD 0

/-- The account of a beneficiary and the ledger. -/
structure Sound (now : Nat) (l : Ledger) (b : PrincipalBytes) (a : Account) : Prop where
  claimed : ∀ sch, a.schedule = some sch →
    sch.claimed = a.executed + a.outstanding ∧ sch.claimed ≤ sch.vestedAt now
  bare : a.schedule = none → a.executed = 0 ∧ a.marker = none
  marked : ∀ m, a.marker = some m →
    ∃ o u, m = Operation.marker o u ∧ o.claimSeq = a.count ∧ a.count ≤ usizeMax
  unpaid : ¬Executed l b a.count → paid l b = a.executed
  paid : Executed l b a.count → paid l b = a.executed + a.outstanding

/-- A suspended claim: its marker stands, nobody else's transfer to its beneficiary is under
way, and what it is answered is true. -/
structure TaskSound (l : Ledger) (t : Nat) (b : PrincipalBytes) (o : Operation) (a : Account) :
    Prop where
  marker : a.marker = some (o.marker false)
  owed : ∀ u, Owes l u b → u = t
  asked : ∀ q, l.inFlight t = some q → q = .icrc1Transfer (o.transfer b)
  settled : ∀ r, l.replies t = some (.transfer r) → (settledBlock r).isSome →
    Executed l b o.claimSeq
  refused : ∀ r, l.replies t = some (.transfer r) → settledBlock r = none →
    ¬Executed l b o.claimSeq ∧ ∀ u, ¬Owes l u b

/-- The operation was begun, and if it is not resolved its marker stands. -/
def Begun (s : VestingState) (b : PrincipalBytes) (n : Nat) : Prop :=
  n ≤ usizeMax ∧ (n < s.count b ∨ n = s.count b ∧ s.marker b ≠ none)

structure SoundAt (now : Nat) (s : VestingState) (l : Ledger) (tasks : Nat → Option ClaimTask)
    (next : Nat) : Prop where
  numbered : s.Numbered
  accounts : ∀ b, Sound now l b (s.account b)
  suspended : ∀ t k, tasks t = some k → ∃ b o, k = Operation.task o b ∧ TaskSound l t b o (s.account b)
  alone : ∀ t u k k', tasks t = some k → tasks u = some k' → k.beneficiary = k'.beneficiary → t = u
  calls : ∀ t q, l.inFlight t = some q → ∃ b o u, s.marker b = some (Operation.marker o u) ∧
    q = .icrc1Transfer (o.transfer b) ∧ ¬Executed l b o.claimSeq
  once : ∀ t u b, Owes l t b → Owes l u b → t = u
  blocks : ∀ a, Block.own a ∈ l.blocks →
    ∃ b o, a = Operation.transfer o b ∧ (b, o.claimSeq) ∈ s.operations
  free : ∀ t, next ≤ t → tasks t = none ∧ l.inFlight t = none ∧ l.replies t = none
  fresh : s.operations.Nodup
  begun : ∀ b n, (b, n) ∈ s.operations ↔ Begun s b n

def WorldSound (w : VestingWorld) : Prop := SoundAt w.now w.state w.env w.tasks w.next

section Basics
variable {now next : Nat} {s s' : VestingState} {l : Ledger} {tasks : Nat → Option ClaimTask}
  {b c : PrincipalBytes} {o : Operation} {u : Bool}

theorem Account.outstanding_of_marker {a : Account} (h : a.marker = some (o.marker u)) :
    a.outstanding = o.amount := by
  rw [outstanding, h]
  rfl

theorem Account.outstanding_of_none {a : Account} (h : a.marker = none) : a.outstanding = 0 := by
  rw [outstanding, h]
  rfl

theorem Operation.marker_inj {p : Operation} {v : Bool} (h : o.marker u = p.marker v) :
    o = p ∧ u = v := by
  cases o
  cases p
  simp only [Operation.marker, TransferOutcomeMarker.mk.injEq, Option.some.injEq] at h
  obtain ⟨rfl, rfl, rfl, rfl⟩ := h
  exact ⟨rfl, rfl⟩

/-- The operation of a standing marker has the next number. -/
theorem Sound.seq {a : Account} (h : Sound now l b a) (hm : a.marker = some (o.marker u)) :
    o.claimSeq = a.count ∧ a.count ≤ usizeMax := by
  obtain ⟨p, v, heq, hseq, hle⟩ := h.marked _ hm
  obtain ⟨rfl, -⟩ := Operation.marker_inj heq
  exact ⟨hseq, hle⟩

theorem SoundAt.seq (h : SoundAt now s l tasks next) (hm : s.marker b = some (o.marker u)) :
    o.claimSeq = s.count b ∧ s.count b ≤ usizeMax := (h.accounts b).seq hm

/-- The operation of a marker is one that was begun. -/
theorem SoundAt.recorded (h : SoundAt now s l tasks next) (hm : s.marker b = some (o.marker u)) :
    (b, o.claimSeq) ∈ s.operations := by
  obtain ⟨hseq, hle⟩ := h.seq hm
  refine (h.begun b _).2 ⟨by omega, .inr ⟨hseq, ?_⟩⟩
  rw [hm]
  exact Option.some_ne_none _

/-- No tombstone stands yet for the operation of a marker. -/
theorem SoundAt.no_tombstone (h : SoundAt now s l tasks next)
    (hm : s.marker b = some (o.marker u)) : s.tombstone b o.claimSeq = none := by
  obtain ⟨hseq, hle⟩ := h.seq hm
  have hlt := usizeMax_lt
  have hnum := h.numbered b o.claimSeq (by omega)
  rw [hseq] at hnum ⊢
  simpa using hnum

/-- Nothing is owed to a beneficiary without a marker. -/
theorem SoundAt.owes_marker (h : SoundAt now s l tasks next) {t : Nat} (ho : Owes l t b) :
    ∃ p v, s.marker b = some (Operation.marker p v) ∧
      l.inFlight t = some (.icrc1Transfer (p.transfer b)) ∧ ¬Executed l b p.claimSeq := by
  obtain ⟨p, hp⟩ := ho
  obtain ⟨c, o, v, hm, hq, hx⟩ := h.calls t _ hp
  have htransfer : p.transfer b = o.transfer c := LedgerCall.icrc1Transfer.inj hq
  obtain rfl := transfer_payee htransfer
  exact ⟨o, v, hm, htransfer ▸ hp, hx⟩

/-- An operation that was carried out is owed no more. -/
theorem SoundAt.not_owed (h : SoundAt now s l tasks next) (hm : s.marker b = some (o.marker u))
    (hx : Executed l b o.claimSeq) (t : Nat) : ¬Owes l t b := fun ho => by
  obtain ⟨p, v, hm', -, hno⟩ := h.owes_marker ho
  rw [hm] at hm'
  obtain ⟨rfl, -⟩ := Operation.marker_inj (Option.some.inj hm')
  exact hno hx

/-! ### Steps that no message takes -/

theorem Sound.later {now' : Nat} {a : Account} (h : Sound now l b a) (hle : now ≤ now') :
    Sound now' l b a :=
  ⟨fun sch hs => ⟨(h.claimed sch hs).1, Nat.le_trans (h.claimed sch hs).2 (sch.vestedAt_mono hle)⟩,
    h.bare, h.marked, h.unpaid, h.paid⟩

theorem SoundAt.later {now' : Nat} (h : SoundAt now s l tasks next) (hle : now ≤ now') :
    SoundAt now' s l tasks next := {h with accounts := fun b => (h.accounts b).later hle}

/-- The references are no part of it. -/
theorem SoundAt.rebound (h : SoundAt now s l tasks next) (refs : Option (PrincipalBytes × PrincipalBytes))
    (token controller : Option PrincipalBytes) : SoundAt now
      {s with
        canisterRefs := refs
        tokenCanister := token
        controller := controller} l tasks next :=
  ⟨h.numbered, h.accounts, h.suspended, h.alone, h.calls, h.once, h.blocks, h.free, h.fresh,
    h.begun⟩

/-- An answered message is off the list. -/
theorem SoundAt.drop (h : SoundAt now s l tasks next) (t : Nat) :
    SoundAt now s l (Function.update tasks t none) next := by
  have hold : ∀ u k, Function.update tasks t none u = some k → tasks u = some k := fun u k hu => by
    by_cases hut : u = t
    · subst hut
      simp at hu
    · rwa [Function.update_of_ne hut] at hu
  refine {h with
    suspended := fun u k hu => h.suspended u k (hold u k hu)
    alone := fun u v k k' hu hv => h.alone u v k k' (hold u k hu) (hold v k' hv)
    free := fun u hu => ⟨?_, (h.free u hu).2⟩}
  by_cases hut : u = t
  · subst hut
    exact Function.update_self _ _ _
  · rw [Function.update_of_ne hut]
    exact (h.free u hu).1

theorem SoundAt.upgraded (h : SoundAt now s l tasks next) :
    SoundAt now s.sweepInflightMarkersOnUpgrade l (fun _ => none) next := by
  have hmarker : ∀ b, s.sweepInflightMarkersOnUpgrade.marker b =
      (s.marker b).map fun m => {m with unknown := true} := fun b =>
    congrArg Account.marker (account_sweep s b)
  have hstands : ∀ b o u, s.marker b = some (Operation.marker o u) →
      s.sweepInflightMarkersOnUpgrade.marker b = some (o.marker true) := fun b o u hm => by
    rw [hmarker, hm]
    rfl
  have hbegun : ∀ b n, Begun s.sweepInflightMarkersOnUpgrade b n ↔ Begun s b n := fun b n => by
    show _ ∧ (_ ∨ _ ∧ s.sweepInflightMarkersOnUpgrade.marker b ≠ none) ↔ _
    rw [hmarker, Ne, Option.map_eq_none_iff]
    rfl
  refine ⟨h.numbered, fun b => ?_, fun t k hk => (nomatch hk), fun t u k k' hk => (nomatch hk),
    fun t q hq => ?_, h.once, h.blocks, fun t ht => ⟨rfl, (h.free t ht).2⟩, h.fresh,
    fun b n => (h.begun b n).trans (hbegun b n).symm⟩
  · have hb := h.accounts b
    rw [account_sweep]
    have hout : Account.outstanding {s.account b with
        marker := (s.marker b).map fun m => {m with unknown := true}} =
          (s.account b).outstanding := by
      show ((Option.map _ (s.marker b)).bind _).getD 0 = ((s.marker b).bind _).getD 0
      cases s.marker b <;> rfl
    refine ⟨fun sch hs => ?_, fun hs => ?_, fun m hm => ?_, hb.unpaid, fun hx => ?_⟩
    · rw [hout]
      exact hb.claimed sch hs
    · exact ⟨(hb.bare hs).1, Option.map_eq_none_iff.2 (hb.bare hs).2⟩
    · obtain ⟨m', hm', rfl⟩ := Option.map_eq_some_iff.1 hm
      obtain ⟨o, u, rfl, hseq, hle⟩ := hb.marked m' hm'
      exact ⟨o, true, rfl, hseq, hle⟩
    · rw [hout]
      exact hb.paid hx
  · obtain ⟨b, o, u, hm, hq', hx⟩ := h.calls t q hq
    exact ⟨b, o, true, hstands b o u hm, hq', hx⟩

/-! ### Steps of the ledger -/

theorem SoundAt.foreign (h : SoundAt now s l tasks next) :
    SoundAt now s {l with blocks := l.blocks ++ [.foreign]} tasks next := by
  have hx : ∀ b n, Executed {l with blocks := l.blocks ++ [.foreign]} b n ↔ Executed l b n :=
    fun b n => executed_append fun a ha => nomatch ha
  have hpaid : ∀ b, Vesting.paid {l with blocks := l.blocks ++ [.foreign]} b = Vesting.paid l b :=
    fun b => paid_append l .foreign b
  refine {h with
    accounts := fun b => ?_
    suspended := fun t k hk => ?_
    calls := fun t q hq => ?_
    blocks := fun a ha => ?_}
  · have hb := h.accounts b
    refine ⟨hb.claimed, hb.bare, hb.marked, fun hno => ?_, fun hyes => ?_⟩
    · rw [hpaid]
      exact hb.unpaid fun hyes => hno ((hx _ _).2 hyes)
    · rw [hpaid]
      exact hb.paid ((hx _ _).1 hyes)
  · obtain ⟨b, o, rfl, htask⟩ := h.suspended t k hk
    exact ⟨b, o, rfl, htask.marker, htask.owed, htask.asked,
      fun r hr hs => (hx _ _).2 (htask.settled r hr hs),
      fun r hr hs => ⟨fun hyes => (htask.refused r hr hs).1 ((hx _ _).1 hyes),
        (htask.refused r hr hs).2⟩⟩
  · obtain ⟨b, o, u, hm, hq', hno⟩ := h.calls t q hq
    exact ⟨b, o, u, hm, hq', fun hyes => hno ((hx _ _).1 hyes)⟩
  · rcases List.mem_append.1 ha with ha | ha
    · exact h.blocks a ha
    · exact nomatch List.mem_singleton.1 ha

section Execute
variable {t : Nat} {bs : List Block} {r : LedgerReply}

/-- The call that is carried out is owed no more. -/
theorem owes_carryOut {v : Nat} : Owes (l.carryOut t bs r) v c ↔ v ≠ t ∧ Owes l v c := by
  unfold Owes Ledger.carryOut
  by_cases hv : v = t
  · subst hv
    simp
  · simp [hv]

theorem SoundAt.lt_next (h : SoundAt now s l tasks next) {q : LedgerCall}
    (hq : l.inFlight t = some q) : t < next := by
  by_contra hle
  have := (h.free t (Nat.le_of_not_lt hle)).2.1
  rw [hq] at this
  cases this

/-- The transfer of an operation is carried out, or refused. -/
theorem SoundAt.carryOut (h : SoundAt now s l tasks next) (hm : s.marker b = some (o.marker u))
    (hq : l.inFlight t = some (.icrc1Transfer (o.transfer b))) {result : Except IcrcTransferError Nat}
    (hother : ∀ c n, c ≠ b → (Executed (l.carryOut t bs (.transfer result)) c n ↔ Executed l c n))
    (howe : ∀ c, c ≠ b → Vesting.paid (l.carryOut t bs (.transfer result)) c = Vesting.paid l c)
    (hown : Sound now (l.carryOut t bs (.transfer result)) b (s.account b))
    (htrue : Executed (l.carryOut t bs (.transfer result)) b o.claimSeq ↔
      (settledBlock result).isSome)
    (hblocks : ∀ a, Block.own a ∈ bs → Block.own a ∈ l.blocks ∨ a = o.transfer b) :
    SoundAt now s (l.carryOut t bs (.transfer result)) tasks next := by
  have hnone : ∀ v, ¬Owes (l.carryOut t bs (.transfer result)) v b := fun v hv => by
    obtain ⟨hne, hold⟩ := owes_carryOut.1 hv
    exact hne (h.once v t b hold ⟨o, hq⟩)
  have hflight : ∀ v q, (l.carryOut t bs (.transfer result)).inFlight v = some q →
      v ≠ t ∧ l.inFlight v = some q := fun v q hv => by
    by_cases hvt : v = t
    · subst hvt
      simp [Ledger.carryOut] at hv
    · exact ⟨hvt, by simpa [Ledger.carryOut, hvt] using hv⟩
  have hreply : ∀ v, v ≠ t → (l.carryOut t bs (.transfer result)).replies v = l.replies v :=
    fun v hv => Function.update_of_ne hv _ _
  refine {h with
    accounts := fun c => ?_
    suspended := fun v k hk => ?_
    calls := fun v q hv => ?_
    once := fun v v' c hv hv' =>
      h.once v v' c (owes_carryOut.1 hv).2 (owes_carryOut.1 hv').2
    blocks := fun a ha => ?_
    free := fun v hv => ?_}
  · by_cases hc : c = b
    · subst hc
      exact hown
    · have hsound := h.accounts c
      exact ⟨hsound.claimed, hsound.bare, hsound.marked,
        fun hno => (howe c hc).trans (hsound.unpaid fun hx => hno ((hother c _ hc).2 hx)),
        fun hx => (howe c hc).trans (hsound.paid ((hother c _ hc).1 hx))⟩
  · obtain ⟨c, p, rfl, htask⟩ := h.suspended v k hk
    by_cases hc : c = b
    · subst hc
      obtain rfl : t = v := htask.owed t ⟨o, hq⟩
      have hmark : s.marker c = some (p.marker false) := htask.marker
      rw [hm] at hmark
      obtain ⟨rfl, -⟩ := Operation.marker_inj (Option.some.inj hmark)
      have hanswer : (l.carryOut t bs (.transfer result)).replies t = some (.transfer result) :=
        Function.update_self _ _ _
      refine ⟨c, o, rfl, htask.marker, fun w hw => absurd hw (hnone w),
        fun q hv => absurd rfl (hflight t q hv).1, fun r hr hs => ?_, fun r hr hs => ?_⟩
      · rw [hanswer] at hr
        cases hr
        exact htrue.2 hs
      · rw [hanswer] at hr
        cases hr
        refine ⟨fun hx => ?_, hnone⟩
        have := htrue.1 hx
        rw [hs] at this
        cases this
    · have hvt : v ≠ t := by
        rintro rfl
        have := LedgerCall.icrc1Transfer.inj (htask.asked _ hq)
        exact hc (transfer_payee this).symm
      refine ⟨c, p, rfl, htask.marker, fun w hw => htask.owed w (owes_carryOut.1 hw).2,
        fun q hv => htask.asked q (hflight v q hv).2, fun r hr hs => ?_, fun r hr hs => ?_⟩
      · rw [hreply v hvt] at hr
        exact (hother c _ hc).2 (htask.settled r hr hs)
      · rw [hreply v hvt] at hr
        obtain ⟨hno, howed⟩ := htask.refused r hr hs
        exact ⟨fun hx => hno ((hother c _ hc).1 hx), fun w hw => howed w (owes_carryOut.1 hw).2⟩
  · obtain ⟨hne, hold⟩ := hflight v q hv
    obtain ⟨c, p, w, hmark, rfl, hno⟩ := h.calls v q hold
    have hc : c ≠ b := by
      rintro rfl
      exact hne (h.once v t c ⟨p, hold⟩ ⟨o, hq⟩)
    exact ⟨c, p, w, hmark, rfl, fun hx => hno ((hother c _ hc).1 hx)⟩
  · rcases hblocks a ha with hold | rfl
    · exact h.blocks a hold
    · exact ⟨b, o, rfl, h.recorded hm⟩
  · have hvt : v ≠ t := by
      have := h.lt_next hq
      omega
    rw [hreply v hvt]
    refine ⟨(h.free v hv).1, ?_, (h.free v hv).2.2⟩
    exact (Function.update_of_ne hvt _ _).trans (h.free v hv).2.1

theorem SoundAt.executes (h : SoundAt now s l tasks next) {q : LedgerCall}
    (hq : l.inFlight t = some q) (he : Ledger.Executes (fun _ _ => True) l.blocks q bs r) :
    SoundAt now s (l.carryOut t bs r) tasks next := by
  obtain ⟨b, o, u, hm, rfl, hno⟩ := h.calls t q hq
  have hb := h.accounts b
  obtain ⟨hseq, hle⟩ := h.seq hm
  have hout : (s.account b).outstanding = o.amount := Account.outstanding_of_marker hm
  have hcount : ¬Executed l b (s.account b).count := by
    show ¬Executed l b (s.count b)
    rw [← hseq]
    exact hno
  cases he with
  | transferred _ =>
    have hx : ∀ c n, c ≠ b → (Executed (l.carryOut t (l.blocks ++ [.own (o.transfer b)])
        (.transfer (.ok l.blocks.length))) c n ↔ Executed l c n) := fun c n hc =>
      executed_append (l := l) fun a ha hmemo => by
        cases ha
        exact hc (claimMemo_payee (Option.some.inj hmemo)).symm
    have hpaid : ∀ c, Vesting.paid (l.carryOut t (l.blocks ++ [.own (o.transfer b)])
        (.transfer (.ok l.blocks.length))) c =
          Vesting.paid l c + if c = b then o.amount else 0 := fun c => by
      rw [← payment_transfer]
      exact paid_append l _ c
    have hdone : Executed (l.carryOut t (l.blocks ++ [.own (o.transfer b)])
        (.transfer (.ok l.blocks.length))) b o.claimSeq :=
      ⟨o.transfer b, List.mem_append_right _ List.mem_cons_self, rfl⟩
    refine h.carryOut hm hq hx (fun c hc => ?_) ?_ ⟨fun _ => rfl, fun _ => hdone⟩ fun a ha => ?_
    · rw [hpaid, if_neg hc, Nat.add_zero]
    · refine ⟨hb.claimed, hb.bare, hb.marked, fun hnot => ?_, fun _ => ?_⟩
      · refine absurd ?_ hnot
        show Executed _ b (s.count b)
        rw [← hseq]
        exact hdone
      · rw [hpaid, if_pos rfl, hb.unpaid hcount, hout]
    · rcases List.mem_append.1 ha with ha | ha
      · exact .inl ha
      · exact .inr (Block.own.inj (List.mem_singleton.1 ha))
  | duplicate hblock => exact absurd ⟨o.transfer b, List.mem_of_getElem? hblock, rfl⟩ hno
  | refused hrefused =>
    refine h.carryOut hm hq (fun c n _ => Iff.rfl) (fun c _ => rfl)
      ⟨hb.claimed, hb.bare, hb.marked, hb.unpaid, hb.paid⟩ ?_ fun a ha => .inl ha
    rw [hrefused]
    exact ⟨fun hx => absurd hx hno, fun hs => nomatch hs⟩

end Execute

theorem SoundAt.moves {l' : Ledger} (h : SoundAt now s l tasks next)
    (hmove : Ledger.Moves (fun _ _ => True) l l') : SoundAt now s l' tasks next := by
  cases hmove with
  | execute hq he => exact h.executes hq he
  | foreign => exact h.foreign

/-! ### Steps of messages -/

theorem begun_iff {n : Nat} : Begun s b n ↔
    n ≤ usizeMax ∧ (n < (s.account b).count ∨ n = (s.account b).count ∧ (s.account b).marker ≠ none) :=
  Iff.rfl

/-- A step that concerns the account of one beneficiary. -/
theorem SoundAt.rebook (h : SoundAt now s l tasks next) {a : Account} (hnum : s'.Numbered)
    (hacc : s'.account = Function.update s.account b a) (hsound : Sound now l b a)
    (htasks : ∀ t p, tasks t = some (Operation.task p b) → TaskSound l t b p a)
    (hcalls : ∀ t p v, l.inFlight t = some (.icrc1Transfer (Operation.transfer p b)) →
      s.marker b = some (p.marker v) → ∃ v', a.marker = some (p.marker v'))
    (hfresh : s'.operations.Nodup) (hkept : ∀ x, x ∈ s.operations → x ∈ s'.operations)
    (hbegun : ∀ n, (b, n) ∈ s'.operations ↔ Begun s' b n)
    (hnew : ∀ c n, c ≠ b → (c, n) ∈ s'.operations → (c, n) ∈ s.operations) :
    SoundAt now s' l tasks next := by
  have hself : s'.account b = a := by rw [hacc, Function.update_self]
  have hother : ∀ c, c ≠ b → s'.account c = s.account c := fun c hc => by
    rw [hacc, Function.update_of_ne hc]
  refine {h with
    numbered := hnum
    accounts := fun c => ?_
    suspended := fun t k hk => ?_
    calls := fun t q hq => ?_
    blocks := fun x hx => ?_
    fresh := hfresh
    begun := fun c n => ?_}
  · by_cases hc : c = b
    · subst hc
      rw [hself]
      exact hsound
    · rw [hother c hc]
      exact h.accounts c
  · obtain ⟨c, p, rfl, htask⟩ := h.suspended t k hk
    refine ⟨c, p, rfl, ?_⟩
    by_cases hc : c = b
    · subst hc
      rw [hself]
      exact htasks t p hk
    · rw [hother c hc]
      exact htask
  · obtain ⟨c, p, v, hm, rfl, hno⟩ := h.calls t q hq
    by_cases hc : c = b
    · subst hc
      obtain ⟨w, hw⟩ := hcalls t p v hq hm
      exact ⟨c, p, w, (congrArg Account.marker hself).trans hw, rfl, hno⟩
    · exact ⟨c, p, v, (congrArg Account.marker (hother c hc)).trans hm, rfl, hno⟩
  · obtain ⟨c, p, rfl, hc⟩ := h.blocks x hx
    exact ⟨c, p, rfl, hkept _ hc⟩
  · by_cases hc : c = b
    · subst hc
      exact hbegun n
    · rw [begun_iff, hother c hc, ← begun_iff, ← h.begun c n]
      exact ⟨hnew c n hc, hkept _⟩

/-- An operation that was not begun was not carried out. -/
theorem SoundAt.not_executed (h : SoundAt now s l tasks next) {n : Nat} (hn : n ≤ u64Max)
    (hb : (b, n) ∉ s.operations) : ¬Executed l b n := by
  rintro ⟨a, ha, hmemo⟩
  obtain ⟨c, p, rfl, hc⟩ := h.blocks a ha
  have hlt := usizeMax_lt
  have hle : p.claimSeq ≤ u64Max := Nat.le_trans ((h.begun _ _).1 hc).1 (Nat.le_of_lt hlt)
  obtain ⟨rfl, rfl⟩ := claimMemo_inj hle hn (Option.some.inj hmemo)
  exact hb hc

/-- The operation is resolved, as the ledger has it, and nothing is owed any more. -/
theorem SoundAt.settle (h : SoundAt now s l tasks next) (hm : s.marker b = some (o.marker u))
    {resolution : ClaimResolution} (at_ : Nat)
    (htrue : resolution = .executed ↔ Executed l b o.claimSeq) (howe : ∀ t, ¬Owes l t b)
    (halone : ∀ t k, tasks t = some k → k.beneficiary ≠ b) :
    SoundAt now (s.settle b o resolution at_) l tasks next := by
  obtain ⟨hseq, hle⟩ := h.seq hm
  have hlt := usizeMax_lt
  have hb := h.accounts b
  have hout : (s.account b).outstanding = o.amount := Account.outstanding_of_marker hm
  have hacc : (s.settle b o resolution at_).account =
      Function.update s.account b ((s.account b).resolve o resolution) :=
    account_settle h.numbered hseq hle
  have hops : (s.settle b o resolution at_).operations = s.operations := settle_operations
  have hnext : ¬Executed l b (s.count b + 1) := by
    refine h.not_executed (by omega) fun hmem => ?_
    have := ((h.begun _ _).1 hmem).2
    omega
  have hscheduled : (s.account b).schedule ≠ none := fun hnone => by
    have : s.marker b = none := (hb.bare hnone).2
    rw [hm] at this
    cases this
  refine h.rebook (numbered_settle h.numbered hseq hle) hacc ?_
    (fun t p ht => absurd rfl (halone t _ ht)) (fun t p _ ht => absurd ⟨p, ht⟩ (howe t))
    (hops ▸ h.fresh) (fun x hx => hops ▸ hx) (fun n => ?_) fun c n _ hn => hops ▸ hn
  · cases resolution with
    | executed =>
      have hx : Executed l b (s.account b).count := by
        show Executed l b (s.count b)
        rw [← hseq]
        exact htrue.1 rfl
      have hpaid := hb.paid hx
      rw [hout] at hpaid
      refine ⟨fun sch hs => ⟨?_, (hb.claimed sch hs).2⟩, fun hnone => absurd hnone hscheduled,
        fun m hm' => (nomatch hm'), fun _ => hpaid, fun hx' => absurd hx' hnext⟩
      have hclaimed := (hb.claimed sch hs).1
      rw [hout] at hclaimed
      exact hclaimed
    | reverted =>
      have hno : ¬Executed l b (s.account b).count := by
        show ¬Executed l b (s.count b)
        rw [← hseq]
        exact fun hx => nomatch htrue.2 hx
      refine ⟨fun sch' hs => ?_, fun hnone => ?_, fun m hm' => (nomatch hm'),
        fun _ => hb.unpaid hno, fun hx' => absurd hx' hnext⟩
      · obtain ⟨sch, hsch, rfl⟩ := Option.map_eq_some_iff.1 hs
        obtain ⟨hclaimed, hvested⟩ := hb.claimed sch hsch
        rw [hout] at hclaimed
        refine ⟨?_, ?_⟩
        · show sch.claimed - o.amount = (s.account b).executed + 0
          omega
        · rw [VestingSchedule.vestedAt_claimed]
          exact Nat.le_trans (Nat.sub_le _ _) hvested
      · exact absurd (Option.map_eq_none_iff.1 hnone) hscheduled
  · have hbook : (s.settle b o resolution at_).account b = (s.account b).resolve o resolution := by
      rw [hacc, Function.update_self]
    have hcount : ((s.account b).resolve o resolution).count = s.count b + 1 := by
      cases resolution <;> rfl
    have hgone : ((s.account b).resolve o resolution).marker = none := by
      cases resolution <;> rfl
    rw [hops, h.begun b n, begun_iff, begun_iff, hbook, hcount, hgone]
    have hmarked : (s.account b).marker ≠ none := fun hnone => nomatch hm.symm.trans hnone
    have hsame : (s.account b).count = s.count b := rfl
    simp only [hsame, hmarked, ne_eq, not_true_eq_false, not_false_eq_true, and_false, and_true,
      or_false, and_congr_right_iff]
    omega

/-- The operation is stuck: its marker stays. -/
theorem SoundAt.stick (h : SoundAt now s l tasks next) (hm : s.marker b = some (o.marker u))
    (halone : ∀ t k, tasks t = some k → k.beneficiary ≠ b) :
    SoundAt now (s.putMarker b (o.marker true)) l tasks next := by
  have hb := h.accounts b
  obtain ⟨hseq, hle⟩ := h.seq hm
  have hout : Account.outstanding {s.account b with marker := some (o.marker true)} =
      (s.account b).outstanding := (Account.outstanding_of_marker rfl).trans
    (Account.outstanding_of_marker hm).symm
  refine h.rebook (numbered_congr rfl h.numbered) (account_putMarker _ _ _) ?_
    (fun t p ht => absurd rfl (halone t _ ht)) (fun t p v ht hp => ?_) h.fresh (fun _ hx => hx)
    (fun n => ?_) fun _ _ _ hn => hn
  · refine ⟨fun sch hs => ?_, fun hnone => ?_, fun m hm' => ?_, hb.unpaid, fun hx => ?_⟩
    · rw [hout]
      exact hb.claimed sch hs
    · have : s.marker b = none := (hb.bare hnone).2
      rw [hm] at this
      cases this
    · cases hm'
      exact ⟨o, true, rfl, hseq, hle⟩
    · rw [hout]
      exact hb.paid hx
  · rw [hm] at hp
    obtain ⟨rfl, -⟩ := Operation.marker_inj (Option.some.inj hp)
    exact ⟨true, rfl⟩
  · have hmarked : (s.account b).marker ≠ none := fun hnone => nomatch hm.symm.trans hnone
    rw [begun_iff, account_putMarker, Function.update_self]
    refine (h.begun b n).trans ?_
    rw [begun_iff]
    simp only [hmarked, ne_eq, reduceCtorEq, not_false_eq_true]

/-- A claim is sent: its call and its continuation are under the next number. -/
theorem SoundAt.send (h : SoundAt now s l tasks next) (hm : s.marker b = some (o.marker false))
    (hno : ¬Executed l b o.claimSeq) (howe : ∀ t, ¬Owes l t b)
    (halone : ∀ t k, tasks t = some k → k.beneficiary ≠ b) :
    SoundAt now s (sent l next (.icrc1Transfer (o.transfer b)))
      (Function.update tasks next (some (o.task b))) (next + 1) := by
  have hflight : ∀ t, t ≠ next →
      (sent l next (.icrc1Transfer (o.transfer b))).inFlight t = l.inFlight t := fun t ht =>
    Function.update_of_ne ht _ _
  have hself : (sent l next (.icrc1Transfer (o.transfer b))).inFlight next =
      some (.icrc1Transfer (o.transfer b)) := Function.update_self _ _ _
  have howes : ∀ t c, Owes (sent l next (.icrc1Transfer (o.transfer b))) t c →
      t = next ∧ c = b ∨ t ≠ next ∧ Owes l t c := fun t c ht => by
    obtain ⟨p, hp⟩ := ht
    by_cases hnext : t = next
    · subst hnext
      have hsent : o.transfer b = p.transfer c :=
        LedgerCall.icrc1Transfer.inj (Option.some.inj (hself.symm.trans hp))
      exact .inl ⟨rfl, (transfer_payee hsent).symm⟩
    · exact .inr ⟨hnext, p, (hflight t hnext).symm.trans hp⟩
  obtain ⟨-, -, hreply⟩ := h.free next (Nat.le_refl _)
  refine {h with
    accounts := fun c => ⟨(h.accounts c).claimed, (h.accounts c).bare, (h.accounts c).marked,
      (h.accounts c).unpaid, (h.accounts c).paid⟩
    suspended := fun t k hk => ?_
    alone := fun t v k k' hk hv heq => ?_
    calls := fun t q hq => ?_
    once := fun t v c ht hv => ?_
    free := fun t ht => ?_}
  · by_cases hnext : t = next
    · subst hnext
      rw [Function.update_self] at hk
      cases hk
      refine ⟨b, o, rfl, hm, fun v hv => ?_, fun q hq => ?_, fun r hr => ?_, fun r hr => ?_⟩
      · rcases howes v b hv with ⟨rfl, -⟩ | ⟨-, hold⟩
        · rfl
        · exact absurd hold (howe v)
      · exact (Option.some.inj (hself.symm.trans hq)).symm
      · exact nomatch hreply.symm.trans hr
      · exact nomatch hreply.symm.trans hr
    · rw [Function.update_of_ne hnext] at hk
      obtain ⟨c, p, rfl, htask⟩ := h.suspended t k hk
      have hc : c ≠ b := halone t _ hk
      have hold : ∀ v, Owes (sent l next (.icrc1Transfer (o.transfer b))) v c → Owes l v c :=
        fun v hv => (howes v c hv).elim (fun hv => absurd hv.2 hc) And.right
      exact ⟨c, p, rfl, htask.marker, fun v hv => htask.owed v (hold v hv),
        fun q hq => htask.asked q ((hflight t hnext).symm.trans hq), htask.settled,
        fun r hr hs => ⟨(htask.refused r hr hs).1, fun v hv =>
          (htask.refused r hr hs).2 v (hold v hv)⟩⟩
  · by_cases ht : t = next
    · by_cases hv' : v = next
      · rw [ht, hv']
      · subst ht
        rw [Function.update_self] at hk
        rw [Function.update_of_ne hv'] at hv
        cases hk
        exact absurd heq.symm (halone v k' hv)
    · rw [Function.update_of_ne ht] at hk
      by_cases hv' : v = next
      · subst hv'
        rw [Function.update_self] at hv
        cases hv
        exact absurd heq (halone t k hk)
      · rw [Function.update_of_ne hv'] at hv
        exact h.alone t v k k' hk hv heq
  · by_cases hnext : t = next
    · subst hnext
      exact ⟨b, o, false, hm, (Option.some.inj (hself.symm.trans hq)).symm, hno⟩
    · exact h.calls t q ((hflight t hnext).symm.trans hq)
  · rcases howes t c ht with ⟨rfl, rfl⟩ | ⟨-, hold⟩
    · rcases howes v _ hv with ⟨rfl, -⟩ | ⟨-, hold⟩
      · rfl
      · exact absurd hold (howe v)
    · rcases howes v c hv with ⟨rfl, rfl⟩ | ⟨-, hold'⟩
      · exact absurd hold (howe t)
      · exact h.once t v c hold hold'
  · have hne : t ≠ next := by omega
    have hle : next ≤ t := by omega
    obtain ⟨htask, hcall, hanswer⟩ := h.free t hle
    exact ⟨(Function.update_of_ne hne _ _).trans htask, (hflight t hne).trans hcall, hanswer⟩

/-- What a claim does before its transfer. -/
theorem SoundAt.opened (h : SoundAt now s l tasks next) {sch : VestingSchedule}
    (hsch : s.schedule b = some sch) (hfree : s.marker b = none)
    (hamount : o.amount = sch.claimableAt now) (hseq : o.claimSeq = s.count b)
    (hle : s.count b ≤ usizeMax)
    (hacc : s'.account = Function.update s.account b {s.account b with
      schedule := some {sch with claimed := sch.claimed + o.amount}
      marker := some (o.marker false)})
    (htombs : s'.terminalClaimTombstones = s.terminalClaimTombstones)
    (hops : s'.operations = (b, o.claimSeq) :: s.operations) : SoundAt now s'
      (sent l next (.icrc1Transfer (o.transfer b)))
      (Function.update tasks next (some (o.task b))) (next + 1) := by
  have hlt := usizeMax_lt
  have hb := h.accounts b
  have hnotbegun : (b, o.claimSeq) ∉ s.operations := fun hmem => by
    rcases ((h.begun _ _).1 hmem).2 with hlt | ⟨-, hmarked⟩
    · omega
    · exact hmarked hfree
  have hno : ¬Executed l b o.claimSeq := h.not_executed (by omega) hnotbegun
  have howe : ∀ t, ¬Owes l t b := fun t ht => by
    obtain ⟨p, v, hm, -⟩ := h.owes_marker ht
    rw [hfree] at hm
    cases hm
  have halone : ∀ t k, tasks t = some k → k.beneficiary ≠ b := fun t k hk hkb => by
    obtain ⟨c, p, rfl, htask⟩ := h.suspended t k hk
    obtain rfl : c = b := hkb
    have : s.marker c = some (p.marker false) := htask.marker
    rw [hfree] at this
    cases this
  have hbook : s'.account b = {s.account b with
      schedule := some {sch with claimed := sch.claimed + o.amount}
      marker := some (o.marker false)} := by rw [hacc, Function.update_self]
  have hbooked : SoundAt now s' l tasks next := by
    refine h.rebook (numbered_congr htombs h.numbered) hacc ?_
      (fun t p ht => absurd rfl (halone t _ ht)) (fun t p _ ht => absurd ⟨p, ht⟩ (howe t))
      ?_ (fun x hx => hops ▸ List.mem_cons_of_mem _ hx) (fun n => ?_) fun c n hc hn => ?_
    · obtain ⟨hclaimed, hvested⟩ := hb.claimed sch hsch
      have hout : (s.account b).outstanding = 0 := Account.outstanding_of_none hfree
      rw [sch.claimableAt_eq] at hamount
      refine ⟨fun sch' hs => ?_, fun hnone => (nomatch hnone), fun m hm => ?_, hb.unpaid,
        fun hx => absurd ?_ hno⟩
      · cases hs
        rw [hout] at hclaimed
        refine ⟨?_, ?_⟩
        · show sch.claimed + o.amount = (s.account b).executed + o.amount
          omega
        · show sch.claimed + o.amount ≤ sch.vestedAt now
          omega
      · cases hm
        exact ⟨o, false, rfl, hseq, hle⟩
      · rw [hseq]
        exact hx
    · rw [hops, List.nodup_cons]
      exact ⟨hnotbegun, h.fresh⟩
    · rw [hops, List.mem_cons, h.begun b n, begun_iff, begun_iff, hbook]
      have hsame : (s.account b).count = s.count b := rfl
      have hnone : (s.account b).marker = none := hfree
      simp only [hsame, hnone, Prod.mk.injEq, true_and, ne_eq, not_true_eq_false, and_false,
        or_false, reduceCtorEq, not_false_eq_true, and_true]
      omega
    · rw [hops] at hn
      rcases List.mem_cons.1 hn with heq | hold
      · cases heq
        exact absurd rfl hc
      · exact hold
  exact hbooked.send (congrArg Account.marker hbook) hno howe halone

end Basics

/-! ### Runs -/

/-- A reconciliation is decided as the ledger has it: what is said to be paid was paid, and
what is not will not be. -/
def Truthful (w : VestingWorld) : Event Input LedgerReply → Prop
  | .call (.reconcileClaim _ b decision) => ∀ m seq, w.state.marker b = some m →
      m.claimSeq = some seq →
        match decision with
        | .executed => Executed w.env b seq
        | .notExecuted => ¬Executed w.env b seq ∧ ∀ t, ¬Owes w.env t b
  | _ => True

variable {D : Deployment}

theorem call_sound {w w' : VestingWorld} {i : Input} (h : WorldSound w)
    (hok : Truthful w (.call i))
    (hl : Lands ledgerService w ((canister D).start w.now i w.state) w') : WorldSound w' := by
  cases i with
  | claim caller =>
    have heffect := claim_effect w.now caller w.state
    rw [show (canister D).start w.now (.claim caller) w.state = claim w.now caller w.state from rfl]
      at hl
    generalize claim w.now caller w.state = outcome at heffect hl
    cases heffect with
    | refused => cases hl; exact h
    | trapped => cases hl
    | opened hsch hfree hamount hseq hle hs htombs hops =>
      obtain ⟨l', hl', rfl⟩ := hl.of_call
      cases hl'
      exact SoundAt.opened h hsch hfree hamount hseq hle hs htombs hops
  | reconcileClaim caller b decision =>
    have heffect := reconcileClaim_effect w.now caller b decision w.state
    rw [show (canister D).start w.now (.reconcileClaim caller b decision) w.state =
      reconcileClaim w.now caller b decision w.state from rfl] at hl
    generalize reconcileClaim w.now caller b decision w.state = outcome at heffect hl
    cases heffect with
    | refused => cases hl; exact h
    | stuck hm hu =>
      obtain ⟨o, u, rfl, hseq, hle⟩ := (h.accounts b).marked _ hm
      obtain rfl : u = true := hu
      have hsay := hok _ _ hm rfl
      rw [reconcileStuck_eq decision (h.no_tombstone hm)] at hl
      cases hl.of_reply
      refine SoundAt.settle h hm w.now ?_ (fun t => ?_) fun t k hk hkb => ?_
      · cases decision with
        | executed => exact ⟨fun _ => hsay, fun _ => rfl⟩
        | notExecuted => exact ⟨fun hres => (nomatch hres), fun hx => absurd hx hsay.1⟩
      · cases decision with
        | executed => exact h.not_owed hm hsay t
        | notExecuted => exact hsay.2 t
      · obtain ⟨c, p, rfl, htask⟩ := h.suspended t k hk
        obtain rfl : c = b := hkb
        have hfly : w.state.marker c = some (p.marker false) := htask.marker
        rw [hm] at hfly
        exact nomatch (Operation.marker_inj (Option.some.inj hfly)).2

/-- Only the ledger's own answer resolves a claim, and it does as it says. -/
theorem resolutionOf_some {r : LedgerReply} {resolution : ClaimResolution}
    (h : resolutionOf r = some resolution) : ∃ result, r = .transfer result ∧
      (resolution = .executed ↔ (settledBlock result).isSome) := by
  cases r with
  | transfer result =>
    refine ⟨result, rfl, ?_⟩
    simp only [resolutionOf] at h
    by_cases hsettled : (settledBlock result).isSome = true
    · rw [if_pos hsettled] at h
      cases h
      exact ⟨fun _ => hsettled, fun _ => rfl⟩
    · rw [if_neg hsettled] at h
      cases h
      exact ⟨fun heq => (nomatch heq), fun hyes => absurd hyes hsettled⟩
  | _ => cases h

theorem reply_sound {w w' : VestingWorld} {t : Nat} {k : ClaimTask} {r : LedgerReply}
    (h : WorldSound w) (hk : w.tasks t = some k) (hr : ledgerService.answer t r w.env)
    (hl : Lands ledgerService (w.finish t) ((canister D).resume w.now k r w.state) w') :
    WorldSound w' := by
  obtain ⟨b, o, rfl, htask⟩ := h.suspended t k hk
  have hm : w.state.marker b = some (o.marker false) := htask.marker
  have hdrop : SoundAt w.now w.state w.env (w.finish t).tasks w.next := h.drop t
  have halone : ∀ u k', (w.finish t).tasks u = some k' → k'.beneficiary ≠ b := fun u k' hu hkb => by
    by_cases hut : u = t
    · subst hut
      simp [World.finish] at hu
    · have hu' : w.tasks u = some k' := by simpa [World.finish, hut] using hu
      exact hut (h.alone u t k' _ hu' hk hkb)
  obtain ⟨a, heq⟩ := claimAnswered_effect D w.now b r (h.no_tombstone hm)
  rw [show (canister D).resume w.now (o.task b) r w.state =
    claimAnswered D w.now (o.task b) r w.state from rfl, heq] at hl
  cases hl.of_reply
  cases hres : resolutionOf r with
  | none => exact hdrop.stick hm halone
  | some resolution =>
    obtain ⟨result, rfl, hsays⟩ := resolutionOf_some hres
    have hanswer : w.env.replies t = some (.transfer result) := by
      rcases hr with hr | ⟨message, hr⟩
      · exact hr
      · cases hr
    cases hsettled : settledBlock result with
    | some block =>
      have hx := htask.settled result hanswer (by rw [hsettled]; rfl)
      obtain rfl : resolution = .executed := hsays.2 (by rw [hsettled]; rfl)
      exact hdrop.settle hm w.now ⟨fun _ => hx, fun _ => rfl⟩ (h.not_owed hm hx) halone
    | none =>
      obtain ⟨hno, howe⟩ := htask.refused result hanswer hsettled
      have hback : resolution ≠ .executed := fun heq => by
        have := hsays.1 heq
        rw [hsettled] at this
        cases this
      exact hdrop.settle hm w.now ⟨fun heq => absurd heq hback, fun hx => absurd hx hno⟩ howe halone

theorem step_sound {w w' : VestingWorld} {e : Event Input LedgerReply} (h : WorldSound w)
    (hok : Truthful w e) (hstep : (canister D).Step ledgerService w e w') : WorldSound w' := by
  cases hstep with
  | call hl => exact call_sound h hok hl
  | callTrap => exact h
  | reply hk hr hl => exact reply_sound h hk hr hl
  | replyTrap hk hr htrap =>
    obtain ⟨b, o, rfl, htask⟩ := h.suspended _ _ hk
    obtain ⟨a, heq⟩ := claimAnswered_effect D w.now b _ (h.no_tombstone htask.marker)
    exact nomatch heq.symm.trans htrap
  | upgrade hup =>
    obtain ⟨token, controller, rfl⟩ := postUpgrade_eq (D := D) hup
    exact (h.rebound _ _ _).upgraded
  | wait hle => exact h.later hle
  | elsewhere hmove => exact h.moves hmove
  | others hother =>
    obtain ⟨p, hp⟩ := hother
    obtain ⟨token, rfl⟩ := rebindController_eq hp
    exact h.rebound _ _ _

/-! ### The install -/

/-- Nothing was claimed yet. -/
structure Unclaimed (s : VestingState) : Prop where
  schedules : ∀ b sch, s.schedule b = some sch → sch.claimed = 0
  markers : s.transferOutcomeUnknown = ∅
  tombstones : s.terminalClaimTombstones = ∅
  operations : s.operations = []

theorem buildSchedule_claimed {now : Nat} {n : NewSchedule} {sch : VestingSchedule}
    (h : buildSchedule now n = .ok sch) : sch.claimed = 0 := by
  obtain ⟨_, -, h⟩ := bind_ok h
  obtain ⟨_, -, h⟩ := bind_ok h
  obtain ⟨_, -, h⟩ := bind_ok h
  obtain ⟨_, -, h⟩ := bind_ok h
  cases h
  rfl

theorem Unclaimed.put {s : VestingState} (h : Unclaimed s) {b : PrincipalBytes}
    {sch : VestingSchedule} (hsch : sch.claimed = 0) : Unclaimed (s.putSchedule b sch) := by
  refine ⟨fun c sch' hc => ?_, h.markers, h.tombstones, h.operations⟩
  have hbook := congrFun (account_putSchedule s b sch) c
  by_cases hcb : c = b
  · subst hcb
    rw [Function.update_self] at hbook
    have : (s.putSchedule c sch).schedule c = some sch := congrArg Account.schedule hbook
    rw [hc] at this
    rw [Option.some.inj this, hsch]
  · rw [Function.update_of_ne hcb] at hbook
    have : (s.putSchedule b sch).schedule c = s.schedule c := congrArg Account.schedule hbook
    exact h.schedules c sch' (this.symm.trans hc)

theorem init_unclaimed {now : Nat} {args : InitArgs} {s : VestingState}
    (h : init D now args = .ok s) : Unclaimed s := by
  obtain ⟨-, -, h⟩ := bind_ok h
  have hfresh : Unclaimed (VestingState.fresh.setCanisterRefs args.tokenCanister args.controller) :=
    ⟨fun b sch hb => by simp [VestingState.fresh, setCanisterRefs, schedule] at hb, rfl, rfl, rfl⟩
  generalize VestingState.fresh.setCanisterRefs args.tokenCanister args.controller = t at h hfresh
  generalize args.schedules = rows at h
  induction rows generalizing t with
  | nil =>
    cases h
    exact hfresh
  | cons n rest ih =>
    obtain ⟨t', hput, h⟩ := foldlM_cons_ok h
    obtain ⟨sch, hsch, hput⟩ := bind_ok hput
    cases hput
    exact ih _ (hfresh.put (buildSchedule_claimed hsch)) h

theorem installed_sound {w : VestingWorld} (h : Installed D w) : WorldSound w := by
  obtain ⟨⟨args, hinit⟩, ⟨n, hidle⟩, htasks⟩ := h
  obtain ⟨hschedules, hmarkers, htombstones, hoperations⟩ := init_unclaimed hinit
  have hmarker : ∀ b, w.state.marker b = none := fun b => by
    rw [VestingState.marker, hmarkers]
    rfl
  have hcount : ∀ b, w.state.count b = 0 := fun b => by
    rw [count, htombstones]
    rfl
  have htotal : ∀ b, w.state.executedTotal b = 0 := fun b => by
    rw [executedTotal, htombstones]
    rfl
  have hflight : ∀ t, w.env.inFlight t = none := fun t => by rw [hidle]; rfl
  have hforeign : ∀ a, Block.own a ∉ w.env.blocks := fun a ha => by
    rw [hidle] at ha
    cases (List.mem_replicate.1 ha).2
  have hpaid : ∀ b, Vesting.paid w.env b = 0 := fun b => by
    rw [hidle]
    simp [Vesting.paid, Ledger.idle, payment]
  have hnotexecuted : ∀ b seq, ¬Executed w.env b seq := fun b seq => by
    rintro ⟨a, ha, -⟩
    exact hforeign a ha
  refine ⟨fun b seq _ => ?_, fun b => ⟨fun sch hs => ?_, fun _ => ⟨htotal b, hmarker b⟩,
      fun m hm => ?_, fun _ => (hpaid b).trans (htotal b).symm,
      fun hx => absurd hx (hnotexecuted b _)⟩,
    fun t k hk => ?_, fun t u k k' hk => ?_, fun t q hq => ?_, fun t u b ht => ?_,
    fun a ha => absurd ha (hforeign a), fun t _ => ⟨?_, hflight t, ?_⟩, ?_, fun b m => ?_⟩
  · rw [hcount, tombstone, htombstones]
    simp
  · have hzero := hschedules b sch hs
    have hout : (w.state.account b).outstanding = 0 := Account.outstanding_of_none (hmarker b)
    have hexec : (w.state.account b).executed = 0 := htotal b
    rw [hout, hexec, hzero]
    exact ⟨rfl, Nat.zero_le _⟩
  · cases (hmarker b).symm.trans hm
  · rw [htasks] at hk
    cases hk
  · rw [htasks] at hk
    cases hk
  · rw [hflight] at hq
    cases hq
  · obtain ⟨o, ho⟩ := ht
    rw [hflight] at ho
    cases ho
  · rw [htasks]
  · rw [hidle]
    rfl
  · rw [hoperations]
    exact List.nodup_nil
  · rw [hoperations]
    simp [Begun, hcount, hmarker]

/-- In every run whose reconciliations are decided truly the invariant holds. -/
theorem run_sound {w : VestingWorld} (run : (system D).RunIf Truthful w) : WorldSound w :=
  run.invariant (fun _ h => installed_sound h) fun _ _ _ _ h hok hstep => step_sound h hok hstep

/-! ### What is paid -/

/-- What holds of every beneficiary in every state. -/
structure PaysVested (w : VestingWorld) : Prop where
  claimed : ∀ b sch, w.state.schedule b = some sch →
    sch.claimed = w.state.executedTotal b + (w.state.account b).outstanding
  vested : ∀ b sch, w.state.schedule b = some sch →
    sch.claimed ≤ sch.vestedAt w.now ∧ sch.claimed ≤ sch.totalAmount
  paid : ∀ b sch, w.state.schedule b = some sch → paid w.env b ≤ sch.claimed
  unscheduled : ∀ b, w.state.schedule b = none → Vesting.paid w.env b = 0
  alone : ∀ t u k k', w.tasks t = some k → w.tasks u = some k' →
    k.beneficiary = k'.beneficiary → t = u
  marked : ∀ t k, w.tasks t = some k → w.state.marker k.beneficiary = some k.opMarker
  memos : (w.state.operations.map fun x => claimMemo x.1 x.2).Nodup
  unburied : ∀ b m, w.state.marker b = some m →
    ∃ seq, m.claimSeq = some seq ∧ (b, seq) ∈ w.state.operations ∧ w.state.tombstone b seq = none

/-- Tombstones stay as they are, and an operation is resolved by its tombstone. -/
structure Resolves (w w' : VestingWorld) : Prop where
  kept : ∀ b seq x, seq ≤ u64Max → w.state.tombstone b seq = some x →
    w'.state.tombstone b seq = some x
  resolved : ∀ b m, w.state.marker b = some m → w'.state.marker b = none →
    ∃ seq resolution at_, m.claimSeq = some seq ∧ w'.state.tombstone b seq =
      some ⟨m.claimSeq, m.pendingAmount, m.createdAtTimeNs, resolution, at_⟩
  begun : ∀ b m, w.state.marker b = none → w'.state.marker b = some m →
    ∃ seq, m.claimSeq = some seq ∧ ∀ c n, (c, n) ∈ w.state.operations →
      claimMemo c n ≠ claimMemo b seq
  remembered : ∀ x, x ∈ w.state.operations → x ∈ w'.state.operations

theorem Sound.outstanding_le {now : Nat} {l : Ledger} {b : PrincipalBytes} {a : Account}
    (h : Sound now l b a) : Vesting.paid l b ≤ a.executed + a.outstanding := by
  by_cases hx : Executed l b a.count
  · exact Nat.le_of_eq (h.paid hx)
  · rw [h.unpaid hx]
    exact Nat.le_add_right _ _

theorem paysVested_of_sound {w : VestingWorld} (h : WorldSound w) : PaysVested w where
  claimed b sch hs := ((h.accounts b).claimed sch hs).1
  vested b sch hs :=
    have hle := ((h.accounts b).claimed sch hs).2
    ⟨hle, Nat.le_trans hle (sch.vestedAt_le_total _)⟩
  paid b sch hs := by
    rw [((h.accounts b).claimed sch hs).1]
    exact (h.accounts b).outstanding_le
  unscheduled b hs := by
    have hle := (h.accounts b).outstanding_le
    obtain ⟨hexec, hmarker⟩ := (h.accounts b).bare hs
    rw [hexec, Account.outstanding_of_none hmarker] at hle
    exact Nat.le_zero.1 hle
  alone := h.alone
  marked t k hk := by
    obtain ⟨b, o, rfl, htask⟩ := h.suspended t k hk
    exact htask.marker
  memos := by
    refine List.Nodup.map_on ?_ h.fresh
    rintro ⟨b, m⟩ hb ⟨c, n⟩ hc heq
    have hlt := usizeMax_lt
    have hm := ((h.begun b m).1 hb).1
    have hn := ((h.begun c n).1 hc).1
    obtain ⟨rfl, rfl⟩ := claimMemo_inj (by omega) (by omega) heq
    rfl
  unburied b m hm := by
    obtain ⟨o, u, rfl, -, -⟩ := (h.accounts b).marked m hm
    exact ⟨o.claimSeq, rfl, h.recorded hm, h.no_tombstone hm⟩

/-! ### What a step resolves -/

/-- What a step does to the markers and the tombstones. -/
inductive Change (s : VestingState) : VestingState → Prop where
  | kept {s' : VestingState} (htombs : s'.terminalClaimTombstones = s.terminalClaimTombstones)
      (hmarkers : ∀ b, s'.marker b = none ↔ s.marker b = none)
      (hops : s'.operations = s.operations) : Change s s'
  | opened {s' : VestingState} {b : PrincipalBytes} {o : Operation} {a : Account}
      (hseq : o.claimSeq = s.count b) (hle : s.count b ≤ usizeMax) (hfree : s.marker b = none)
      (hs : s'.account = Function.update s.account b a) (ha : a.marker = some (o.marker false))
      (htombs : s'.terminalClaimTombstones = s.terminalClaimTombstones)
      (hops : s'.operations = (b, o.claimSeq) :: s.operations) : Change s s'
  | settled {b : PrincipalBytes} {o : Operation} {u : Bool} {resolution : ClaimResolution}
      {at_ : Nat} (hm : s.marker b = some (o.marker u)) :
      Change s (s.settle b o resolution at_)

theorem Change.same (s : VestingState) : Change s s :=
  .kept rfl (fun _ => Iff.rfl) rfl

theorem call_change {w w' : VestingWorld} {i : Input} (h : WorldSound w)
    (hl : Lands ledgerService w ((canister D).start w.now i w.state) w') :
    Change w.state w'.state := by
  cases i with
  | claim caller =>
    have heffect := claim_effect w.now caller w.state
    rw [show (canister D).start w.now (.claim caller) w.state = claim w.now caller w.state from rfl]
      at hl
    generalize claim w.now caller w.state = outcome at heffect hl
    cases heffect with
    | refused => cases hl; exact .same _
    | trapped => cases hl
    | opened hsch hfree hamount hseq hle hs htombs hops =>
      obtain ⟨l', hl', rfl⟩ := hl.of_call
      exact .opened hseq hle hfree hs rfl htombs hops
  | reconcileClaim caller b decision =>
    have heffect := reconcileClaim_effect w.now caller b decision w.state
    rw [show (canister D).start w.now (.reconcileClaim caller b decision) w.state =
      reconcileClaim w.now caller b decision w.state from rfl] at hl
    generalize reconcileClaim w.now caller b decision w.state = outcome at heffect hl
    cases heffect with
    | refused => cases hl; exact .same _
    | stuck hm hu =>
      obtain ⟨o, u, rfl, hseq, hle⟩ := (h.accounts b).marked _ hm
      obtain rfl : u = true := hu
      rw [reconcileStuck_eq decision (h.no_tombstone hm)] at hl
      cases hl.of_reply
      exact .settled hm

theorem reply_change {w w' : VestingWorld} {t : Nat} {k : ClaimTask} {r : LedgerReply}
    (h : WorldSound w) (hk : w.tasks t = some k)
    (hl : Lands ledgerService (w.finish t) ((canister D).resume w.now k r w.state) w') :
    Change w.state w'.state := by
  obtain ⟨b, o, rfl, htask⟩ := h.suspended t k hk
  have hm : w.state.marker b = some (o.marker false) := htask.marker
  obtain ⟨a, heq⟩ := claimAnswered_effect D w.now b r (h.no_tombstone hm)
  rw [show (canister D).resume w.now (o.task b) r w.state =
    claimAnswered D w.now (o.task b) r w.state from rfl, heq] at hl
  cases hl.of_reply
  cases hres : resolutionOf r with
  | some resolution => exact .settled hm
  | none =>
    refine .kept rfl (fun c => ?_) rfl
    have hbook := congrFun (account_putMarker w.state b (o.marker true)) c
    have hmarker := congrArg Account.marker hbook
    by_cases hc : c = b
    · subst hc
      rw [Function.update_self] at hmarker
      show VestingState.marker _ c = none ↔ _
      rw [show (w.state.putMarker c (o.marker true)).marker c = _ from hmarker, hm]
      simp
    · rw [Function.update_of_ne hc] at hmarker
      show VestingState.marker _ c = none ↔ _
      rw [show (w.state.putMarker b (o.marker true)).marker c = _ from hmarker]
      rfl

theorem step_change {w w' : VestingWorld} {e : Event Input LedgerReply} (h : WorldSound w)
    (hstep : (canister D).Step ledgerService w e w') : Change w.state w'.state := by
  cases hstep with
  | call hl => exact call_change h hl
  | reply hk hr hl => exact reply_change h hk hl
  | upgrade hup =>
    obtain ⟨token, controller, rfl⟩ := postUpgrade_eq (D := D) hup
    refine .kept rfl (fun b => ?_) rfl
    have hmarker := congrArg Account.marker (account_sweep
      {w.state with
        tokenCanister := some token
        controller := some controller} b)
    show VestingState.marker _ b = none ↔ _
    rw [show VestingState.marker _ b = _ from hmarker, Option.map_eq_none_iff]
    rfl
  | others hother =>
    obtain ⟨p, hp⟩ := hother
    obtain ⟨token, rfl⟩ := rebindController_eq hp
    exact .kept rfl (fun _ => Iff.rfl) rfl
  | _ => exact .same _

theorem resolves_of_change {w w' : VestingWorld} (h : WorldSound w)
    (hchange : Change w.state w'.state) : Resolves w w' := by
  have hlt := usizeMax_lt
  generalize hs' : w'.state = s' at hchange
  cases hchange with
  | kept htombs hmarkers hops =>
    refine ⟨fun b seq x _ hx => ?_, fun b m hm hnone => ?_, fun b m hnone hm => ?_, fun x hx => ?_⟩
    · rw [hs', tombstone_congr htombs]
      exact hx
    · rw [hs', hmarkers b] at hnone
      exact nomatch hm.symm.trans hnone
    · rw [hs'] at hm
      exact nomatch hm.symm.trans ((hmarkers b).2 hnone)
    · rw [hs', hops]
      exact hx
  | @opened _ b o a hseq hle hfree hs ha htombs hops =>
    have hother : ∀ c, c ≠ b → s'.marker c = w.state.marker c := fun c hc => by
      have := congrArg Account.marker (congrFun hs c)
      rw [Function.update_of_ne hc] at this
      exact this
    have hown : s'.marker b = some (o.marker false) := by
      have := congrArg Account.marker (congrFun hs b)
      rw [Function.update_self] at this
      exact this.trans ha
    refine ⟨fun c seq x _ hx => ?_, fun c m hm hnone => ?_, fun c m hnone hm => ?_, fun x hx => ?_⟩
    · rw [hs', tombstone_congr htombs]
      exact hx
    · rw [hs'] at hnone
      by_cases hc : c = b
      · subst hc
        exact nomatch hown.symm.trans hnone
      · exact nomatch hm.symm.trans ((hother c hc).symm.trans hnone)
    · rw [hs'] at hm
      by_cases hc : c = b
      · subst hc
        cases hown.symm.trans hm
        refine ⟨o.claimSeq, rfl, fun d n hd heq => ?_⟩
        have hbegun := (h.begun d n).1 hd
        have hn := hbegun.1
        obtain ⟨rfl, rfl⟩ := claimMemo_inj (by omega) (by omega) heq
        rcases hbegun.2 with hless | ⟨-, hmarked⟩
        · omega
        · exact hmarked hfree
      · exact nomatch hm.symm.trans ((hother c hc).trans hnone)
    · rw [hs', hops]
      exact List.mem_cons_of_mem _ hx
  | @settled b o u resolution at_ hm =>
    obtain ⟨hseq, hle⟩ := h.seq hm
    have hnone := h.no_tombstone hm
    have hacc : (w.state.settle b o resolution at_).account =
        Function.update w.state.account b ((w.state.account b).resolve o resolution) :=
      account_settle h.numbered hseq hle
    have hother : ∀ c, c ≠ b → (w.state.settle b o resolution at_).marker c = w.state.marker c :=
      fun c hc => by
        have := congrArg Account.marker (congrFun hacc c)
        rw [Function.update_of_ne hc] at this
        exact this
    have hown : (w.state.settle b o resolution at_).marker b = none := by
      have := congrArg Account.marker (congrFun hacc b)
      rw [Function.update_self] at this
      exact this.trans (by cases resolution <;> rfl)
    refine ⟨fun c seq x hle' hx => ?_, fun c m hm' hgone => ?_, fun c m hgone hm' => ?_,
      fun x hx => ?_⟩
    · rw [hs', tombstone_settle (by omega) hle', if_neg]
      · exact hx
      · rintro ⟨rfl, rfl⟩
        exact nomatch hx.symm.trans hnone
    · rw [hs'] at hgone
      by_cases hc : c = b
      · subst hc
        cases hm.symm.trans hm'
        refine ⟨o.claimSeq, resolution, at_, rfl, ?_⟩
        rw [hs', tombstone_settle (by omega) (by omega), if_pos ⟨rfl, rfl⟩]
        rfl
      · exact nomatch hm'.symm.trans ((hother c hc).symm.trans hgone)
    · rw [hs'] at hm'
      by_cases hc : c = b
      · subst hc
        exact nomatch hm'.symm.trans hown
      · exact nomatch hm'.symm.trans ((hother c hc).trans hgone)
    · rw [hs', settle_operations]
      exact hx

/-- In every run whose reconciliations are decided truly, a beneficiary has claimed what its
executed operations and the outstanding one came to, no more than has vested, and was paid no
more than that; every operation has a memo of its own, and its resolution is a tombstone that
was not there before and stays. -/
theorem pays_vested {w : VestingWorld} (run : (system D).RunIf Truthful w) :
    PaysVested w ∧ ∀ e w', (canister D).Step ledgerService w e w' → Resolves w w' := by
  have h := run_sound run
  exact ⟨paysVested_of_sound h, fun e w' hstep => resolves_of_change h (step_change h hstep)⟩

/-! ### A run in which an answer is lost -/

section Sample

def sampleDeployment : Deployment where
  self := ⟨[9], by decide⟩
  toText _ := ""
  debugTransferError _ := ""
  isController _ := false

def sampleBeneficiary : PrincipalBytes := ⟨[1], by decide⟩

def sampleArgs : InitArgs where
  tokenCanister := ⟨[7], by decide⟩
  controller := ⟨[8], by decide⟩
  schedules := [⟨sampleBeneficiary, 1_000, 0, 2⟩]

def sampleState : VestingState := (init sampleDeployment 0 sampleArgs).toOption.getD .fresh

theorem sampleState_init : init sampleDeployment 0 sampleArgs = .ok sampleState := by
  have hok : (init sampleDeployment 0 sampleArgs).isOk = true := by decide +kernel
  rw [sampleState]
  cases h : init sampleDeployment 0 sampleArgs with
  | ok s => rfl
  | error e =>
    rw [h] at hok
    cases hok

def sampleWorld : VestingWorld where
  now := 0
  state := sampleState
  env := .idle []
  tasks := fun _ => none
  next := 0

/-- The answer to the first claim is lost in an upgrade, its transfer confirmed by hand, and the
rest claimed. -/
def sampleMoves : List (Move Input LedgerReply Ledger.Play) :=
  [.wait nsPerMonth, .call (.claim sampleBeneficiary), .elsewhere (.transfer 0),
    .upgrade, .call (.reconcileClaim sampleArgs.controller sampleBeneficiary .executed),
    .wait (2 * nsPerMonth), .call (.claim sampleBeneficiary), .elsewhere (.transfer 1)]

def isPayment (memo : Bytes) : Block → Bool
  | .own a => a.memo == some memo
  | .foreign => false

/-- Claims, and reconciliations of transfers that were carried out. -/
def truthfulCheck (w : VestingWorld) : Event Input LedgerReply → Bool
  | .call (.reconcileClaim _ b .executed) =>
    ((w.state.marker b).bind (·.claimSeq)).all fun seq => w.env.blocks.any (isPayment (claimMemo b seq))
  | .call (.reconcileClaim _ _ .notExecuted) => false
  | _ => true

theorem truthfulCheck_ok (w : VestingWorld) (e : Event Input LedgerReply)
    (h : truthfulCheck w e = true) : Truthful w e := by
  cases e with
  | call i =>
    cases i with
    | claim caller => trivial
    | reconcileClaim caller b decision =>
      cases decision with
      | notExecuted => cases h
      | executed =>
        intro m seq hm hseq
        rw [truthfulCheck, hm, Option.bind_some, hseq, Option.all_some, List.any_eq_true] at h
        obtain ⟨block, hblock, hpays⟩ := h
        cases block with
        | own a => exact ⟨a, hblock, eq_of_beq hpays⟩
        | foreign => cases hpays
  | _ => trivial

def sampleRun : Option VestingWorld :=
  (Ledger.player fun _ _ => True).run (canister sampleDeployment) truthfulCheck sampleWorld sampleMoves

theorem sampleRun_report : (sampleRun.map fun w =>
    ((w.state.schedule sampleBeneficiary).map (·.claimed), paid w.env sampleBeneficiary,
      w.state.executedTotal sampleBeneficiary, w.state.operations.length)) =
      some (some 1_000, 1_000, 500, 2) := by
  decide +kernel

theorem pays_vested_twice : ∃ w : VestingWorld, PaysVested w ∧
    (w.state.schedule sampleBeneficiary).map (·.claimed) = some 1_000 ∧
    w.state.executedTotal sampleBeneficiary = 500 := by
  obtain ⟨w, hw, hx⟩ := Option.map_eq_some_iff.1 sampleRun_report
  obtain ⟨hclaimed, hrest⟩ := Prod.mk.inj hx
  obtain ⟨-, hrest⟩ := Prod.mk.inj hrest
  refine ⟨w, (pays_vested (D := sampleDeployment) ?_).1, hclaimed, (Prod.mk.inj hrest).1⟩
  exact Player.run_runIf truthfulCheck_ok
    (.start ⟨⟨sampleArgs, sampleState_init⟩, ⟨0, rfl⟩, rfl⟩) hw

end Sample

end StshProtocol.Vesting
