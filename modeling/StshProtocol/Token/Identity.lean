import StshProtocol.Token.Replay

/-! What a dedup key tells apart.

The string that is hashed for a request gives back everything the request says, except where two
optional fields are flattened: an absent memo is hashed as an empty one, and an expected allowance
that is no `u128` as the largest one. Two requests that differ in nothing else (`Confusable`) have
one key, and the second is answered with the block of the first; any other two are told apart. -/
namespace StshProtocol.Token
open Foundation ShieldedPool Handler

/-! ### Fields -/

section
variable {as bs x y : Bytes} {m n w : Nat}

theorem lenPrefixed_append_inj (ha : as.length < 2 ^ 32) (hb : bs.length < 2 ^ 32) :
    lenPrefixed as ++ x = lenPrefixed bs ++ y ↔ as = bs ∧ x = y := by
  rw [lenPrefixed, lenPrefixed, List.append_assoc, List.append_assoc, Bytes.toLe_append_inj ha hb]
  constructor
  · rintro ⟨hlen, h⟩
    exact List.append_inj h hlen
  · rintro ⟨rfl, rfl⟩
    exact ⟨rfl, rfl⟩

theorem toBytesBe_inj : toBytesBe m = toBytesBe n ↔ m = n := by
  refine ⟨fun h => ?_, fun h => h ▸ rfl⟩
  have hread : ∀ k, Bytes.ofBe (toBytesBe k) = k := by
    intro k
    refine Bytes.ofBe_toBe ?_
    have hlt : k < 2 ^ (k.log2 + 1) := Nat.lt_log2_self
    have hle : 2 ^ (k.log2 + 1) ≤ 2 ^ (8 * (k.log2 / 8 + 1)) :=
      Nat.pow_le_pow_right (by decide) (by omega)
    rw [show (256 : Nat) = 2 ^ 8 from rfl, ← Nat.pow_mul]
    omega
  rw [← hread m, ← hread n, h]

/-- The presence byte tells an absent number from a zero. -/
theorem optLe_append_inj {p q : Option Nat} (hp : ∀ v ∈ p, v < 256 ^ w) (hq : ∀ v ∈ q, v < 256 ^ w) :
    optLe w p ++ x = optLe w q ++ y ↔ p = q ∧ x = y := by
  have hzero : 0 < 256 ^ w := Nat.pow_pos (by decide)
  cases p with
  | none =>
    cases q with
    | none =>
      rw [optLe, List.cons_append, List.cons_append, List.cons.injEq,
        Bytes.toLe_append_inj hzero hzero]
      simp
    | some q => simp [optLe]
  | some p =>
    cases q with
    | none => simp [optLe]
    | some q =>
      rw [optLe, optLe, List.cons_append, List.cons_append, List.cons.injEq,
        Bytes.toLe_append_inj (hp p rfl) (hq q rfl)]
      simp

/-- What is hashed of an optional number that is a word. -/
theorem map_toU128 {o : Option Nat} {d : Nat} (h : ∀ v ∈ o, v ≤ u128Max) :
    (o.map fun v => (toU128 v).getD d) = o := by
  cases o with
  | none => rfl
  | some v =>
    rw [Option.map_some, toU128, if_pos (h v rfl)]
    rfl

theorem feeBytes_append_inj {p q : Option Nat} (hp : ∀ v ∈ p, v ≤ u128Max)
    (hq : ∀ v ∈ q, v ≤ u128Max) : feeBytes p ++ x = feeBytes q ++ y ↔ p = q ∧ x = y := by
  have hword : ∀ {v : Nat}, v ≤ u128Max → v < 256 ^ 16 :=
    fun h => Nat.lt_of_le_of_lt h (by decide)
  rw [feeBytes, feeBytes, map_toU128 hp, map_toU128 hq,
    optLe_append_inj (fun v hv => hword (hp v hv)) fun v hv => hword (hq v hv)]

/-- An absent memo is hashed as an empty one. -/
theorem memoBytes_append_inj {p q : Option Bytes} (hp : ∀ v ∈ p, v.length < 2 ^ 32)
    (hq : ∀ v ∈ q, v.length < 2 ^ 32) :
    memoBytes p ++ x = memoBytes q ++ y ↔ p.getD [] = q.getD [] ∧ x = y := by
  have hlen : ∀ {o : Option Bytes}, (∀ v ∈ o, v.length < 2 ^ 32) → (o.getD []).length < 2 ^ 32 := by
    intro o h
    cases o with
    | none => exact (by decide : 0 < 2 ^ 32)
    | some v => exact h v rfl
  rw [memoBytes, memoBytes, lenPrefixed_append_inj (hlen hp) (hlen hq)]

end

/-! ### Accounts -/

/-- What an account is: a principal's bytes, and a subaccount that is zero by default. -/
def Account.identity (a : Account) : Bytes × Bytes32 :=
  (principalSlice a.owner, a.subaccount.getD 0)

/-- The bytes of a subaccount in a key. -/
def subaccountBytes (sub : Bytes32) : Bytes := if sub ≠ 0 then Bytes.toBe 32 sub.toNat else []

theorem encodeKey_eq (a : Account) : a.encodeKey =
    UInt8.ofNat a.identity.1.length :: (a.identity.1 ++ subaccountBytes a.identity.2) := by
  unfold Account.encodeKey Account.identity subaccountBytes
  cases a.subaccount with
  | none => simp
  | some sub =>
    by_cases h : sub ≠ 0
    · simp only [if_pos h, Option.getD_some, List.cons_append]
    · simp only [if_neg h, Option.getD_some, List.append_nil]

theorem length_encodeKey (a : Account) : a.encodeKey.length < 2 ^ 32 := by
  have hslice : a.identity.1.length ≤ 29 := length_principalSlice _
  have hsub : (subaccountBytes a.identity.2).length ≤ 32 := by
    unfold subaccountBytes
    split
    · exact Nat.le_of_eq (Bytes.length_toBe _ _)
    · exact Nat.zero_le _
  rw [encodeKey_eq, List.length_cons, List.length_append]
  omega

theorem subaccountBytes_inj {x y : Bytes32} (h : subaccountBytes x = subaccountBytes y) : x = y := by
  have hnil : ∀ {z : Bytes32}, Bytes.toBe 32 z.toNat ≠ [] := by
    intro z hz
    have hlen := Bytes.length_toBe 32 z.toNat
    rw [hz] at hlen
    exact nomatch hlen
  unfold subaccountBytes at h
  by_cases hx : x = 0 <;> by_cases hy : y = 0
  · rw [hx, hy]
  · rw [if_neg (not_not.2 hx), if_pos hy] at h
    exact absurd h.symm hnil
  · rw [if_pos hx, if_neg (not_not.2 hy)] at h
    exact absurd h hnil
  · rw [if_pos hx, if_pos hy] at h
    have hread : ∀ z : Bytes32, Bytes.ofBe (Bytes.toBe 32 z.toNat) = z.toNat :=
      fun z => Bytes.ofBe_toBe (w := 32) z.isLt
    exact BitVec.eq_of_toNat_eq (by rw [← hread x, ← hread y, h])

/-- Accounts have one key exactly if they are the same. -/
theorem encodeKey_inj {a b : Account} : a.encodeKey = b.encodeKey ↔ a.identity = b.identity := by
  rw [encodeKey_eq, encodeKey_eq]
  refine ⟨fun h => ?_, fun h => by rw [h]⟩
  obtain ⟨hbyte, hrest⟩ := List.cons.inj h
  have ha : a.identity.1.length ≤ 29 := length_principalSlice _
  have hb : b.identity.1.length ≤ 29 := length_principalSlice _
  have hlen : a.identity.1.length = b.identity.1.length := by
    have hbytes := congrArg UInt8.toNat hbyte
    rw [UInt8.toNat_ofNat', UInt8.toNat_ofNat'] at hbytes
    omega
  obtain ⟨hslice, hsub⟩ := List.append_inj hrest hlen
  exact Prod.ext hslice (subaccountBytes_inj hsub)

theorem account_append_inj {a b : Account} {x y : Bytes} :
    lenPrefixed a.encodeKey ++ x = lenPrefixed b.encodeKey ++ y ↔ a.identity = b.identity ∧ x = y := by
  rw [lenPrefixed_append_inj (length_encodeKey a) (length_encodeKey b), encodeKey_inj]

/-! ### Requests -/

def transferFromPreimage (source spender dest : Account) (amount : Nat) (fee : Option Nat)
    (memo : Option Bytes) (createdAtTime : Nat) : Bytes :=
  lenPrefixed (tag "stsh.icrc2_transfer_from.dedup.v1") ++ lenPrefixed source.encodeKey ++
    lenPrefixed spender.encodeKey ++ lenPrefixed dest.encodeKey ++ Bytes.toLe 16 amount ++
    feeBytes fee ++ memoBytes memo ++ Bytes.toLe 8 createdAtTime

def transferPreimage (source dest : Account) (amount : Nat) (fee : Option Nat)
    (memo : Option Bytes) (createdAtTime : Nat) : Bytes :=
  lenPrefixed (tag "stsh.icrc1_transfer.dedup.v1") ++ lenPrefixed source.encodeKey ++
    lenPrefixed dest.encodeKey ++ Bytes.toLe 16 amount ++ feeBytes fee ++ memoBytes memo ++
    Bytes.toLe 8 createdAtTime

def approvePreimage (source : Account) (args : ApproveArgs) (createdAtTime : Nat) : Bytes :=
  lenPrefixed (tag "stsh.icrc2_approve.dedup.v1") ++ lenPrefixed source.encodeKey ++
    lenPrefixed args.spender.encodeKey ++ lenPrefixed (toBytesBe args.amount) ++
    optLe 16 (args.expectedAllowance.map fun e => (toU128 e).getD u128Max) ++
    optLe 8 args.expiresAt ++ feeBytes args.fee ++ memoBytes args.memo ++ Bytes.toLe 8 createdAtTime

/-- The string hashed for a request, for the time it carries. -/
def Call.preimage (caller : Principal) : Call → Nat → Bytes
  | .icrc1Transfer args =>
    transferPreimage ⟨caller, args.fromSubaccount⟩ args.dest args.amount args.fee args.memo
  | .icrc2Approve args => approvePreimage ⟨caller, args.fromSubaccount⟩ args
  | .icrc2TransferFrom args =>
    transferFromPreimage args.source ⟨caller, args.spenderSubaccount⟩ args.dest args.amount args.fee
      args.memo
  | _ => fun _ => []

/-- The endpoints whose requests are recorded. -/
inductive Domain where
  | transfer
  | approve
  | transferFrom
  deriving DecidableEq, Repr

/-- What a request says: its endpoint and every field. The accounts are the approver or sender,
the spender if there is one, and the recipient if there is one. -/
structure Identity where
  domain : Domain
  accounts : List (Bytes × Bytes32)
  amount : Nat
  expectedAllowance : Option Nat
  expiresAt : Option Nat
  fee : Option Nat
  memo : Option Bytes
  createdAtTime : Nat
  deriving DecidableEq, Repr

/-- The identity of a request that carries a time. -/
def Call.identity (caller : Principal) : Call → Nat → Option Identity
  | .icrc1Transfer args, c => some ⟨.transfer,
      [(⟨caller, args.fromSubaccount⟩ : Account).identity, args.dest.identity], args.amount, none, none,
      args.fee, args.memo, c⟩
  | .icrc2Approve args, c => some ⟨.approve,
      [(⟨caller, args.fromSubaccount⟩ : Account).identity, args.spender.identity], args.amount,
      args.expectedAllowance, args.expiresAt, args.fee, args.memo, c⟩
  | .icrc2TransferFrom args, c => some ⟨.transferFrom,
      [args.source.identity, (⟨caller, args.spenderSubaccount⟩ : Account).identity,
        args.dest.identity], args.amount, none, none, args.fee, args.memo, c⟩
  | _, _ => none

/-- The fields have the sizes of their types: a vector has fewer than 2^32 bytes, and a time is a
word. -/
structure Identity.Sized (i : Identity) : Prop where
  memo : ∀ m ∈ i.memo, m.length < 2 ^ 32
  amount : (toBytesBe i.amount).length < 2 ^ 32
  expiresAt : ∀ e ∈ i.expiresAt, e ≤ u64Max
  createdAtTime : i.createdAtTime ≤ u64Max

/-- What the checks before the lookup leave of the numbers: the fee is a `u128`, and so is the
amount of a transfer. -/
structure Identity.Checked (i : Identity) : Prop where
  fee : ∀ f ∈ i.fee, f ≤ u128Max
  amount : i.domain ≠ .approve → i.amount ≤ u128Max

/-- What is hashed of a request: the memo or an empty one, and at most the largest allowance. -/
def Identity.flatten (i : Identity) : Identity :=
  {i with memo := some (i.memo.getD [])
          expectedAllowance := i.expectedAllowance.map fun e => (toU128 e).getD u128Max}

section
variable {caller caller' : Principal} {call call' : Call} {c c' : Nat} {i j : Identity}

def Domain.tag : Domain → Bytes
  | .transfer => Token.tag "stsh.icrc1_transfer.dedup.v1"
  | .approve => Token.tag "stsh.icrc2_approve.dedup.v1"
  | .transferFrom => Token.tag "stsh.icrc2_transfer_from.dedup.v1"

theorem Domain.tag_inj {d d' : Domain} (h : d.tag = d'.tag) : d = d' := by
  cases d <;> cases d' <;> first | rfl | exact absurd h (by decide)

theorem Domain.length_tag (d : Domain) : d.tag.length < 2 ^ 32 := by
  cases d <;> decide

theorem preimage_tag (h : call.identity caller c = some i) :
    ∃ rest, call.preimage caller c = lenPrefixed i.domain.tag ++ rest := by
  cases call with
  | icrc1Transfer args =>
    cases h
    simp only [Call.preimage, transferPreimage, List.append_assoc]
    exact ⟨_, rfl⟩
  | icrc2Approve args =>
    cases h
    simp only [Call.preimage, approvePreimage, List.append_assoc]
    exact ⟨_, rfl⟩
  | icrc2TransferFrom args =>
    cases h
    simp only [Call.preimage, transferFromPreimage, List.append_assoc]
    exact ⟨_, rfl⟩
  | _ => exact nomatch h

/-- Requests of two endpoints are told apart by their tags. -/
theorem domain_eq (hi : call.identity caller c = some i) (hj : call'.identity caller' c' = some j)
    (h : call.preimage caller c = call'.preimage caller' c') : i.domain = j.domain := by
  obtain ⟨x, hx⟩ := preimage_tag hi
  obtain ⟨y, hy⟩ := preimage_tag hj
  rw [hx, hy, lenPrefixed_append_inj (Domain.length_tag _) (Domain.length_tag _)] at h
  exact Domain.tag_inj h.1

theorem lt_of_le_u128Max {n : Nat} (h : n ≤ u128Max) : n < 256 ^ 16 :=
  Nat.lt_of_le_of_lt h (by decide)

theorem lt_of_le_u64Max {n : Nat} (h : n ≤ u64Max) : n < 256 ^ 8 := Nat.lt_of_le_of_lt h (by decide)

theorem flat_lt {o : Option Nat} :
    ∀ v ∈ o.map fun e => (toU128 e).getD u128Max, v < 256 ^ 16 := by
  intro v hv
  obtain ⟨e, -, rfl⟩ := Option.map_eq_some_iff.1 hv
  unfold toU128
  split
  · next hle => exact lt_of_le_u128Max hle
  · exact lt_of_le_u128Max (Nat.le_refl _)

/-- The string of a request gives back everything but what it flattens. -/
theorem preimage_inj (hi : call.identity caller c = some i) (hj : call'.identity caller' c' = some j)
    (si : i.Sized) (sj : j.Sized) (ci : i.Checked) (cj : j.Checked) :
    call.preimage caller c = call'.preimage caller' c' ↔ i.flatten = j.flatten := by
  by_cases hdomain : i.domain = j.domain
  case neg =>
    exact ⟨fun h => absurd (domain_eq hi hj h) hdomain,
      fun h => absurd (congrArg Identity.domain h) hdomain⟩
  have hc := Bytes.toLe_inj (lt_of_le_u64Max si.createdAtTime) (lt_of_le_u64Max sj.createdAtTime)
  cases call with
  | icrc1Transfer args =>
    cases call' with
    | icrc1Transfer args' =>
      cases hi
      cases hj
      simp only [Call.preimage, transferPreimage, List.append_assoc]
      rw [lenPrefixed_append_inj (by decide) (by decide), account_append_inj, account_append_inj,
        Bytes.toLe_append_inj (lt_of_le_u128Max (ci.amount nofun)) (lt_of_le_u128Max (cj.amount nofun)),
        feeBytes_append_inj ci.fee cj.fee, memoBytes_append_inj si.memo sj.memo, hc]
      simp only [Identity.flatten, Identity.mk.injEq, List.cons.injEq, Option.some.injEq,
        Option.map_none, and_true, true_and]
      tauto
    | icrc2Approve | icrc2TransferFrom => cases hi; cases hj; exact nomatch hdomain
    | _ => exact nomatch hj
  | icrc2Approve args =>
    cases call' with
    | icrc2Approve args' =>
      cases hi
      cases hj
      simp only [Call.preimage, approvePreimage, List.append_assoc]
      rw [lenPrefixed_append_inj (by decide) (by decide), account_append_inj, account_append_inj,
        lenPrefixed_append_inj si.amount sj.amount, toBytesBe_inj, optLe_append_inj flat_lt flat_lt,
        optLe_append_inj (fun v hv => lt_of_le_u64Max (si.expiresAt v hv))
          fun v hv => lt_of_le_u64Max (sj.expiresAt v hv),
        feeBytes_append_inj ci.fee cj.fee, memoBytes_append_inj si.memo sj.memo, hc]
      simp only [Identity.flatten, Identity.mk.injEq, List.cons.injEq, Option.some.injEq,
        and_true, true_and]
      tauto
    | icrc1Transfer | icrc2TransferFrom => cases hi; cases hj; exact nomatch hdomain
    | _ => exact nomatch hj
  | icrc2TransferFrom args =>
    cases call' with
    | icrc2TransferFrom args' =>
      cases hi
      cases hj
      simp only [Call.preimage, transferFromPreimage, List.append_assoc]
      rw [lenPrefixed_append_inj (by decide) (by decide), account_append_inj, account_append_inj,
        account_append_inj,
        Bytes.toLe_append_inj (lt_of_le_u128Max (ci.amount nofun)) (lt_of_le_u128Max (cj.amount nofun)),
        feeBytes_append_inj ci.fee cj.fee, memoBytes_append_inj si.memo sj.memo, hc]
      simp only [Identity.flatten, Identity.mk.injEq, List.cons.injEq, Option.some.injEq,
        Option.map_none, and_true, true_and]
      tauto
    | icrc1Transfer | icrc2Approve => cases hi; cases hj; exact nomatch hdomain
    | _ => exact nomatch hj
  | _ => exact nomatch hi

end

/-! ### Two requests -/

/-- The two requests differ, but only in memos of no bytes or in allowances too large to be told
from the largest one. -/
structure Identity.Confusable (i j : Identity) : Prop where
  ne : i ≠ j
  rest : {i with memo := j.memo, expectedAllowance := j.expectedAllowance} = j
  memo : i.memo = j.memo ∨ i.memo.getD [] = [] ∧ j.memo.getD [] = []
  allowance : i.expectedAllowance = j.expectedAllowance ∨
    (∃ e ∈ i.expectedAllowance, u128Max ≤ e) ∧ ∃ e ∈ j.expectedAllowance, u128Max ≤ e

theorem getD_toU128 (e : Nat) : (toU128 e).getD u128Max = min e u128Max := by
  unfold toU128
  split
  · next h => exact (Nat.min_eq_left h).symm
  · next h => exact (Nat.min_eq_right (Nat.le_of_not_le h)).symm

theorem getD_eq_iff {p q : Option Bytes} :
    p.getD [] = q.getD [] ↔ p = q ∨ p.getD [] = [] ∧ q.getD [] = [] := by
  cases p with
  | none => cases q <;> simp [eq_comm]
  | some p =>
    cases q with
    | none => simp
    | some q =>
      simp only [Option.getD_some, Option.some.injEq]
      exact ⟨.inl, fun h => h.elim id fun h => h.1.trans h.2.symm⟩

theorem flat_eq_iff {p q : Option Nat} :
    (p.map fun e => (toU128 e).getD u128Max) = (q.map fun e => (toU128 e).getD u128Max) ↔
      p = q ∨ (∃ e ∈ p, u128Max ≤ e) ∧ ∃ e ∈ q, u128Max ≤ e := by
  simp only [getD_toU128]
  cases p with
  | none => cases q <;> simp
  | some p =>
    cases q with
    | none => simp
    | some q =>
      simp only [Option.map_some, Option.some.injEq, Option.mem_def, exists_eq_left']
      omega

/-- Two requests are flattened alike if they are the same or are confused. -/
theorem flatten_eq_iff {i j : Identity} : i.flatten = j.flatten ↔ i = j ∨ i.Confusable j := by
  obtain ⟨domain, accounts, amount, allowance, expires, fee, memo, c⟩ := i
  obtain ⟨domain', accounts', amount', allowance', expires', fee', memo', c'⟩ := j
  simp only [Identity.flatten, Identity.mk.injEq, Option.some.injEq, getD_eq_iff, flat_eq_iff]
  constructor
  · rintro ⟨rfl, rfl, rfl, hallowance, rfl, rfl, hmemo, rfl⟩
    by_cases hsame : allowance = allowance' ∧ memo = memo'
    · exact .inl ⟨rfl, rfl, rfl, hsame.1, rfl, rfl, hsame.2, rfl⟩
    · refine .inr ⟨fun h => hsame ?_, rfl, hmemo, hallowance⟩
      simp only [Identity.mk.injEq] at h
      exact ⟨h.2.2.2.1, h.2.2.2.2.2.2.1⟩
  · rintro (⟨rfl, rfl, rfl, rfl, rfl, rfl, rfl, rfl⟩ | h)
    · exact ⟨rfl, rfl, rfl, .inl rfl, rfl, rfl, .inl rfl, rfl⟩
    · have hrest := h.rest
      simp only [Identity.mk.injEq] at hrest
      obtain ⟨rfl, rfl, rfl, -, rfl, rfl, -, rfl⟩ := hrest
      exact ⟨rfl, rfl, rfl, h.allowance, rfl, rfl, h.memo, rfl⟩

/-- A request's time is in the window. -/
def InWindow (now : Nat) (createdAtTime : Option Nat) : Prop :=
  ∀ c ∈ createdAtTime, windowCheck now c = .admitted

/-- The request passes the checks before the lookup of its key. -/
def Call.Passes (now : Nat) (s : TokenState) : Call → Prop
  | .icrc1Transfer args => feeAccepted args.fee s.transferFee = true ∧ InWindow now args.createdAtTime ∧
      toU128 args.amount = some args.amount ∧ args.amount ≠ 0 ∧
      checkedTotalDebit args.amount s.transferFee = .ok (args.amount + s.transferFee)
  | .icrc2Approve args => feeAccepted args.fee s.transferFee = true ∧ InWindow now args.createdAtTime
  | .icrc2TransferFrom args => feeAccepted args.fee s.transferFee = true ∧
      InWindow now args.createdAtTime ∧ toU128 args.amount = some args.amount ∧ args.amount ≠ 0 ∧
      checkedTotalDebit args.amount s.transferFee = .ok (args.amount + s.transferFee)
  | _ => False

section
variable {now : Nat} {s : TokenState} {caller : Principal} {call : Call} {c : Nat} {i : Identity}

theorem toU128_le {n m : Nat} (h : toU128 n = some m) : n ≤ u128Max := by
  unfold toU128 at h
  split at h
  · next hle => exact hle
  · exact nomatch h

theorem fee_le {fee : Option Nat} {current : Nat} (h : feeAccepted fee current = true) :
    ∀ f ∈ fee, f ≤ u128Max := by
  rintro f rfl
  exact toU128_le (beq_iff_eq.1 h)

theorem Call.Passes.checked (h : call.Passes now s) (hi : call.identity caller c = some i) :
    i.Checked := by
  cases call with
  | icrc1Transfer args =>
    cases hi
    exact ⟨fee_le h.1, fun _ => toU128_le h.2.2.1⟩
  | icrc2Approve args =>
    cases hi
    exact ⟨fee_le h.1, fun hd => absurd rfl hd⟩
  | icrc2TransferFrom args =>
    cases hi
    exact ⟨fee_le h.1, fun _ => toU128_le h.2.2.1⟩
  | _ => exact h.elim

end

/-! ### The lookup -/

section
variable {ε α β : Type} {s t : TokenState} {dup : Nat → ε} {n : Nat}

/-- The handler refuses nothing as a duplicate. -/
abbrev Plain (dup : Nat → ε) (x : Endpoint ε α) : Prop :=
  Quiet (fun _ : TokenState => ()) (fun e => ∀ n, e ≠ dup n) x

theorem Plain.peel (dup : Nat → ε) {x : Endpoint ε α} {f : α → Endpoint ε β} (hx : Plain dup x)
    (h : (x >>= f).exec s = .ok (.error (dup n), t)) :
    ∃ a u, x.exec s = .ok (.ok a, u) ∧ (f a).exec u = .ok (.error (dup n), t) := by
  rcases bind_error h with hfirst | hrest
  · exact absurd rfl ((hx s _ t hfirst).2 _ rfl n)
  · exact hrest

/-- A request refused as a duplicate of a block is on record with it. -/
theorem checkDuplicate_bind (dup : Nat → ε) {o : Option Nat} {k : Nat → Bytes32}
    {f : Option (Bytes32 × Nat) → Endpoint ε α} (hdup : ∀ m n, dup m = dup n → m = n)
    (hf : ∀ a, Plain dup (f a))
    (h : (checkDuplicate o k dup >>= f).exec s = .ok (.error (dup n), t)) :
    ∃ c v, o = some c ∧ s.dedup.rows[k c]? = some v ∧ v.blockIndex = n := by
  rcases bind_error h with hfirst | ⟨a, u, -, hrest⟩
  · cases o with
    | none => cases hfirst
    | some c =>
      rw [checkDuplicate, exec_bind_ok (exec_read _)] at hfirst
      cases hrow : s.dedup.rows[k c]? with
      | none =>
        rw [hrow] at hfirst
        cases hfirst
      | some v =>
        rw [hrow] at hfirst
        refine ⟨c, v, rfl, hrow, hdup _ _ ?_⟩
        exact Except.error.inj (congrArg Prod.fst (Except.ok.inj hfirst))
  · exact absurd rfl ((hf a u _ t hrest).2 _ rfl n)

theorem plain_sure {x : Endpoint ε α} (hx : x.Sure) : Plain dup x := fun s _ t h =>
  ⟨rfl, fun e he => absurd h (he ▸ hx s e t)⟩

theorem plain_checkWindow {now : Nat} {o : Option Nat} {future old : ε} (hfuture : ∀ n, future ≠ dup n)
    (hold : ∀ n, old ≠ dup n) : Plain dup (checkWindow now o future old) := by
  cases o with
  | none => exact quiet_pure _
  | some c =>
    show Plain dup (windowAnswer (windowCheck now c) future old)
    cases windowCheck now c with
    | admitted => exact quiet_pure _
    | createdInFuture => exact quiet_fail hfuture
    | tooOld => exact quiet_fail hold
    | overflow => exact plain_sure (sure_trap _)

theorem checkWindow_ok {now : Nat} {o : Option Nat} {future old : ε} {u : Unit}
    (h : (checkWindow now o future old).exec s = .ok (.ok u, t)) : InWindow now o ∧ t = s := by
  cases o with
  | none =>
    cases h
    exact ⟨nofun, rfl⟩
  | some c =>
    rw [exec_checkWindow rfl] at h
    cases hw : windowCheck now c with
    | admitted =>
      rw [hw] at h
      cases h
      exact ⟨fun c' hc => Option.some.inj hc ▸ hw, rfl⟩
    | _ =>
      rw [hw] at h
      exact nomatch h

theorem checkedTotalDebit_ne {amount fee : Nat} {e : TransferError}
    (h : checkedTotalDebit amount fee = .error e) (n : Nat) : e ≠ .duplicate n := by
  unfold checkedTotalDebit at h
  split at h <;> cases h
  nofun

theorem checkedCredit_ne {balance amount : Nat} {e : TransferError}
    (h : checkedCredit balance amount = .error e) (n : Nat) : e ≠ .duplicate n := by
  unfold checkedCredit at h
  split at h <;> cases h
  nofun

end

section
variable {E : Env} {now n : Nat} {caller : Principal} {s t : TokenState}

theorem icrc1Transfer_duplicate {args : TransferArgs}
    (h : (icrc1Transfer E now caller args).exec s = .ok (.error (.duplicate n), t)) :
    Call.Passes now s (.icrc1Transfer args) ∧
      ∃ c v, args.createdAtTime = some c ∧ s.dedup.rows[transferDedupKey E
        ⟨caller, args.fromSubaccount⟩ args.dest args.amount args.fee args.memo c]? = some v ∧
        v.blockIndex = n := by
  rw [icrc1Transfer, exec_bind_ok (exec_read _)] at h
  obtain ⟨_, _, hx, h⟩ := Plain.peel TransferError.duplicate (quiet_demand _ (by simp)) h
  obtain ⟨hfee, rfl⟩ := demand_ok_iff.1 hx
  obtain ⟨_, _, hx, h⟩ := Plain.peel TransferError.duplicate (plain_checkWindow (by simp) (by simp)) h
  obtain ⟨hwindow, rfl⟩ := checkWindow_ok hx
  obtain ⟨amount, _, hx, h⟩ := Plain.peel TransferError.duplicate (quiet_need _ (by simp)) h
  obtain ⟨hamount, rfl⟩ := need_ok_iff.1 hx
  obtain rfl : amount = args.amount := toU128_eq hamount
  obtain ⟨_, _, hx, h⟩ := Plain.peel TransferError.duplicate (quiet_demand _ (by simp)) h
  obtain ⟨hne, rfl⟩ := demand_ok_iff.1 hx
  obtain ⟨total, _, hx, h⟩ :=
    Plain.peel TransferError.duplicate (quiet_lift fun e he => checkedTotalDebit_ne he) h
  obtain ⟨htotal, rfl⟩ := lift_ok_iff.1 hx
  obtain rfl := checkedTotalDebit_ok htotal
  refine ⟨⟨hfee, hwindow, hamount, hne, htotal⟩, 
    checkDuplicate_bind TransferError.duplicate (fun _ _ => TransferError.duplicate.inj) (fun _ => ?_) h⟩
  refine (quiet_read _).bind fun _ => (quiet_read _).bind fun _ => ?_
  refine (quiet_demand _ (by simp)).bind fun _ => (quiet_need _ (by simp)).bind fun _ => ?_
  refine (quiet_read _).bind fun _ => (quiet_lift fun e he => checkedCredit_ne he).bind fun _ => ?_
  refine plain_sure ((sure_writeBalance _ _ _).bind fun _ => (sure_writeBalance _ _ _).bind fun _ => ?_)
  exact (sure_routeFee _).bind fun _ => sure_nextBlock.bind fun _ =>
    (sure_recordDedupKey _ _ _).bind fun _ => sure_pure _

theorem icrc2Approve_duplicate {cap : Nat} {args : ApproveArgs}
    (h : (icrc2ApproveReclaiming cap E now caller args).exec s = .ok (.error (.duplicate n), t)) :
    Call.Passes now s (.icrc2Approve args) ∧
      ∃ c v, args.createdAtTime = some c ∧
        s.dedup.rows[approveDedupKey E ⟨caller, args.fromSubaccount⟩ args c]? = some v ∧
        v.blockIndex = n := by
  rw [icrc2ApproveReclaiming, exec_bind_ok (exec_read _)] at h
  obtain ⟨_, _, hx, h⟩ := Plain.peel ApproveError.duplicate (quiet_demand _ (by simp)) h
  obtain ⟨hfee, rfl⟩ := demand_ok_iff.1 hx
  obtain ⟨_, _, hx, h⟩ := Plain.peel ApproveError.duplicate (plain_checkWindow (by simp) (by simp)) h
  obtain ⟨hwindow, rfl⟩ := checkWindow_ok hx
  refine ⟨⟨hfee, hwindow⟩,
    checkDuplicate_bind ApproveError.duplicate (fun _ _ => ApproveError.duplicate.inj) (fun _ => ?_) h⟩
  refine (quiet_lift fun e he m => ?_).bind fun _ => (quiet_need _ (by simp)).bind fun _ => ?_
  · split at he <;> cases he
    simp
  refine (quiet_read _).bind fun _ => (quiet_read _).bind fun _ => ?_
  refine (quiet_demand _ (by simp)).bind fun _ => (quiet_demand _ (by simp)).bind fun _ => ?_
  refine (quiet_read _).bind fun _ => (quiet_read _).bind fun _ => ?_
  refine (quiet_demand _ (by simp)).bind fun _ => (quiet_need _ (by simp)).bind fun _ => ?_
  refine plain_sure ((sure_writeBalance _ _ _).bind fun _ => (sure_routeFee _).bind fun _ => ?_)
  exact (sure_write _).bind fun _ => (sure_write _).bind fun _ => sure_nextBlock.bind fun _ =>
    (sure_recordDedupKey _ _ _).bind fun _ => sure_pure _

theorem plain_poolReceiptGate {spender : Account} {args : TransferFromArgs} {amount : Nat} :
    Plain TransferFromError.duplicate (poolReceiptGate E spender args amount) := by
  refine (quiet_read _).bind fun pool => ?_
  split
  · exact quiet_pure none
  · split
    · refine (quiet_demand _ (by simp)).bind fun _ => (quiet_read _).bind fun existing => ?_
      split
      · exact quiet_fail (by simp)
      · exact quiet_fail (by simp)
      · exact (quiet_read _).bind fun _ => (quiet_demand _ (by simp)).bind fun _ => quiet_pure _
    · exact quiet_fail (by simp)

theorem mapError_ne {r : Except TransferError Nat} {e : TransferFromError}
    (hr : ∀ e n, r = .error e → e ≠ .duplicate n)
    (h : r.mapError TransferFromError.ofTransfer = .error e) (n : Nat) : e ≠ .duplicate n := by
  cases r with
  | ok a => exact nomatch h
  | error e' =>
    cases h
    have hne := hr e' n rfl
    cases e' with
    | duplicate b => exact fun he => hne (congrArg _ (TransferFromError.duplicate.inj he))
    | _ => exact nofun

theorem debit_of_mapError {amount fee total : Nat}
    (h : (checkedTotalDebit amount fee).mapError TransferFromError.ofTransfer = .ok total) :
    checkedTotalDebit amount fee = .ok (amount + fee) := by
  cases hdebit : checkedTotalDebit amount fee with
  | error e =>
    rw [hdebit] at h
    exact nomatch h
  | ok total => rw [checkedTotalDebit_ok hdebit]

theorem icrc2TransferFrom_duplicate {args : TransferFromArgs}
    (h : (icrc2TransferFrom E now caller args).exec s = .ok (.error (.duplicate n), t)) :
    Call.Passes now s (.icrc2TransferFrom args) ∧
      ∃ c v, args.createdAtTime = some c ∧ s.dedup.rows[transferFromDedupKey E args.source
        ⟨caller, args.spenderSubaccount⟩ args.dest args.amount args.fee args.memo c]? = some v ∧
        v.blockIndex = n := by
  rw [icrc2TransferFrom, exec_bind_ok (exec_read _)] at h
  obtain ⟨_, _, hx, h⟩ := Plain.peel TransferFromError.duplicate (quiet_demand _ (by simp)) h
  obtain ⟨hfee, rfl⟩ := demand_ok_iff.1 hx
  obtain ⟨amount, _, hx, h⟩ := Plain.peel TransferFromError.duplicate (quiet_need _ (by simp)) h
  obtain ⟨hamount, rfl⟩ := need_ok_iff.1 hx
  obtain rfl : amount = args.amount := toU128_eq hamount
  obtain ⟨_, _, hx, h⟩ := Plain.peel TransferFromError.duplicate (quiet_demand _ (by simp)) h
  obtain ⟨hne, rfl⟩ := demand_ok_iff.1 hx
  obtain ⟨total, _, hx, h⟩ := Plain.peel TransferFromError.duplicate
    (quiet_lift fun e he => mapError_ne (fun _ n he => checkedTotalDebit_ne he n) he) h
  obtain ⟨htotal, rfl⟩ := lift_ok_iff.1 hx
  obtain ⟨_, _, hx, h⟩ := Plain.peel TransferFromError.duplicate (plain_checkWindow (by simp) (by simp)) h
  obtain ⟨hwindow, rfl⟩ := checkWindow_ok hx
  refine ⟨⟨hfee, hwindow, hamount, hne, debit_of_mapError htotal⟩, checkDuplicate_bind
    TransferFromError.duplicate (fun _ _ => TransferFromError.duplicate.inj) (fun _ => ?_) h⟩
  refine plain_poolReceiptGate.bind fun _ => (quiet_read _).bind fun _ => (quiet_read _).bind fun _ => ?_
  refine (quiet_demand _ (by simp)).bind fun _ => (quiet_need _ (by simp)).bind fun _ => ?_
  refine (quiet_read _).bind fun _ => (quiet_read _).bind fun _ => (quiet_demand _ (by simp)).bind fun _ => ?_
  refine (quiet_need _ (by simp)).bind fun _ => (quiet_read _).bind fun _ => ?_
  refine (quiet_lift fun e he => mapError_ne (fun _ n he => checkedCredit_ne he n) he).bind fun _ => ?_
  refine plain_sure ((sure_write _).bind fun _ => (sure_writeBalance _ _ _).bind fun _ => ?_)
  refine (sure_writeBalance _ _ _).bind fun _ => (sure_routeFee _).bind fun _ => ?_
  exact sure_nextBlock.bind fun _ => (sure_writeReceipt _ _ _ _ _).bind fun _ =>
    (sure_recordDedupKey _ _ _).bind fun _ => sure_pure _

end

/-! ### Messages -/

/-- The identity of a message that carries a time. -/
def Message.identity (m : Message) : Option Identity :=
  m.call.createdAtTime.bind (m.call.identity m.caller)

/-- The string hashed for a message that carries a time. -/
def Message.preimage (m : Message) : Option Bytes :=
  m.call.createdAtTime.map (m.call.preimage m.caller)

/-- The block that an answer calls the request a duplicate of. -/
def Answer.duplicateOf : Answer → Option Nat
  | .transfer (.error (.duplicate n)) => some n
  | .approve (.error (.duplicate n)) => some n
  | .transferFrom (.error (.duplicate n)) => some n
  | _ => none

/-- No two messages of the log are given one digest for two strings. -/
def CollisionFree (E : Env) (log : List Entry) : Prop :=
  ∀ e ∈ log, ∀ e' ∈ log, ∀ x ∈ e.message.preimage, ∀ y ∈ e'.message.preimage,
    E.sha256 x = E.sha256 y → x = y

section
variable {E : Env} {m m' : Message} {s s' : TokenState} {n c : Nat} {i j : Identity} {x : Bytes}
  {key : Bytes32}

theorem identity_of_time (h : m.call.createdAtTime = some c) :
    ∃ i, m.call.identity m.caller c = some i ∧ m.identity = some i := by
  unfold Message.identity
  rw [h, Option.bind_some]
  cases hcall : m.call with
  | icrc1Transfer args => exact ⟨_, rfl, rfl⟩
  | icrc2Approve args => exact ⟨_, rfl, rfl⟩
  | icrc2TransferFrom args => exact ⟨_, rfl, rfl⟩
  | _ =>
    rw [hcall] at h
    exact nomatch h

/-- The key a message is looked up under is the digest of its string. -/
theorem dedupKey_preimage (h : m.dedupKey E = some (key, c)) :
    m.call.createdAtTime = some c ∧ key = E.sha256 (m.call.preimage m.caller c) := by
  obtain ⟨hc, rfl⟩ := keyAt_some h
  refine ⟨hc, ?_⟩
  cases hcall : m.call with
  | icrc1Transfer args => rfl
  | icrc2Approve args => rfl
  | icrc2TransferFrom args => rfl
  | _ =>
    rw [hcall] at hc
    exact nomatch hc

/-- Two messages that pass their checks have one string exactly if they are the same or confused. -/
theorem preimage_eq_iff (hi : m.identity = some i) (hj : m'.identity = some j) (si : i.Sized)
    (sj : j.Sized) (pi : m.call.Passes m.now s) (pj : m'.call.Passes m'.now s') :
    m.preimage = m'.preimage ↔ i = j ∨ i.Confusable j := by
  obtain ⟨c, hc, hi⟩ := Option.bind_eq_some_iff.1 hi
  obtain ⟨c', hc', hj⟩ := Option.bind_eq_some_iff.1 hj
  rw [Message.preimage, Message.preimage, hc, hc', Option.map_some, Option.map_some,
    Option.some.injEq, preimage_inj hi hj si sj (pi.checked hi) (pj.checked hj), flatten_eq_iff]

/-- A message answered as a duplicate passed its checks and is on record. -/
theorem step_duplicate (h : (step E m s).1.duplicateOf = some n) :
    m.call.Passes m.now s ∧ ∃ key c v, m.dedupKey E = some (key, c) ∧
      s.dedup.rows[key]? = some v ∧ v.blockIndex = n := by
  unfold Message.dedupKey
  unfold step stepReclaiming respond at h
  split at h
  · next args hcall =>
    split at h
    · next a t hexec =>
      match a, h with
      | .error (.duplicate b), h =>
        obtain rfl := Option.some.inj h
        obtain ⟨hpasses, c, v, hc, hrow, hblock⟩ := icrc1Transfer_duplicate hexec
        rw [hcall]
        exact ⟨hpasses, _, c, v, by rw [Call.createdAtTime, hc]; rfl, hrow, hblock⟩
    · exact nomatch h
  · next args hcall =>
    split at h
    · next a t hexec =>
      match a, h with
      | .error (.duplicate b), h =>
        obtain rfl := Option.some.inj h
        obtain ⟨hpasses, c, v, hc, hrow, hblock⟩ := icrc2Approve_duplicate hexec
        rw [hcall]
        exact ⟨hpasses, _, c, v, by rw [Call.createdAtTime, hc]; rfl, hrow, hblock⟩
    · exact nomatch h
  · next args hcall =>
    split at h
    · next a t hexec =>
      match a, h with
      | .error (.duplicate b), h =>
        obtain rfl := Option.some.inj h
        obtain ⟨hpasses, c, v, hc, hrow, hblock⟩ := icrc2TransferFrom_duplicate hexec
        rw [hcall]
        exact ⟨hpasses, _, c, v, by rw [Call.createdAtTime, hc]; rfl, hrow, hblock⟩
    · exact nomatch h
  all_goals first | (split at h <;> cases h) | cases h

/-- A message that succeeded passed its checks. -/
theorem Does.passes {cap : Nat} {a : Answer} {t : TokenState} (h : Does cap E m s a t)
    (hblock : a.block = some n) : m.call.Passes m.now s := by
  cases h with
  | nothing idle => exact nomatch (Answer.block_of_idle idle).symm.trans hblock
  | transfer call ht =>
    rw [call]
    exact ⟨ht.fee, ht.window, ht.represented, ht.nonzero, ht.payable⟩
  | approve call ha =>
    rw [call]
    exact ⟨ha.fee, ha.window⟩
  | transferFrom call ht =>
    rw [call]
    exact ⟨ht.fee, ht.window, ht.represented, ht.nonzero, ht.payable⟩
  | _ => exact nomatch hblock

end

/-! ### Runs -/

section
variable {E : Env} {fee : Nat} {args : InitArgs} {clock : Nat} {log : List Entry} {s : TokenState}
  {key : Bytes32} {v : DedupValue}

/-- Whatever is on record was recorded by a message that succeeded. -/
theorem Run.row_logged (run : Run E fee args clock log s) (hrow : s.dedup.rows[key]? = some v) :
    ∃ e ∈ log, e.message.dedupKey E = some (key, v.createdAt) ∧ e.answer.block = some v.blockIndex := by
  induction run with
  | genesis h =>
    obtain ⟨_, rfl, -⟩ := init_ok h
    exact nomatch hrow
  | @step clock log s m run hle hnow ih =>
    have hold : ∀ last : Entry, s.dedup.rows[key]? = some v → ∃ e ∈ last :: log,
        e.message.dedupKey E = some (key, v.createdAt) ∧ e.answer.block = some v.blockIndex := by
      intro last hrow
      obtain ⟨e, he, h⟩ := ih hrow
      exact ⟨e, List.mem_cons_of_mem _ he, h⟩
    have hrecords := does_records (does_step E m s)
    generalize hb : (Token.step E m s).2.dedup = b at hrecords hrow
    cases hrecords with
    | same => exact hold _ hrow
    | pruned => exact hold _ (prune_some hrow)
    | @recorded key' c n hkey hblock free =>
      rw [recordDedup_rows] at hrow
      by_cases hsame : key' = key
      · rw [if_pos hsame] at hrow
        cases hrow
        exact ⟨_, List.mem_cons_self .., hsame ▸ hkey, hblock⟩
      · rw [if_neg hsame] at hrow
        exact hold _ (prune_some hrow)

/-- A request answered as a duplicate has its first submission in the log, with the same string
unless two strings of the log collide. -/
theorem Run.duplicate_of (run : Run E fee args clock log s) (hfree : CollisionFree E log)
    {newer older : List Entry} {again : Entry} {n : Nat} (hlog : log = newer ++ again :: older)
    (hdup : again.answer.duplicateOf = some n) :
    ∃ first ∈ older, first.answer.block = some n ∧
      first.message.call.Passes first.message.now first.before ∧
      again.message.call.Passes again.message.now again.before ∧
      ∃ i j, first.message.identity = some i ∧ again.message.identity = some j ∧
        first.message.preimage = again.message.preimage := by
  obtain ⟨clock', before, -⟩ := run.entry hlog
  obtain ⟨-, -, hstep⟩ := run.history.entry hlog
  have hanswer : (Token.step E again.message again.before).1.duplicateOf = some n := by rw [hstep]; exact hdup
  obtain ⟨hpasses, key, c, v, hkey, hrow, rfl⟩ := step_duplicate hanswer
  obtain ⟨first, hfirst, hkey', hblock⟩ := before.row_logged hrow
  obtain ⟨hc, hdigest⟩ := dedupKey_preimage hkey
  obtain ⟨hc', hdigest'⟩ := dedupKey_preimage hkey'
  obtain ⟨j, -, hj⟩ := identity_of_time hc
  obtain ⟨i, -, hi⟩ := identity_of_time hc'
  refine ⟨first, hfirst, hblock, (before.history.does hfirst).passes hblock, hpasses, i, j, hi, hj, ?_⟩
  have hmem : ∀ e ∈ again :: older, e ∈ log := fun e he =>
    hlog ▸ List.mem_append_right newer he
  rw [Message.preimage, Message.preimage, hc, hc', Option.map_some, Option.map_some, Option.some.injEq]
  refine hfree first (hmem _ (List.mem_cons_of_mem _ hfirst)) again (hmem _ (List.mem_cons_self ..)) _
    ?_ _ ?_ (hdigest'.symm.trans hdigest)
  · rw [Message.preimage, hc']
    rfl
  · rw [Message.preimage, hc]
    rfl

end

/-- The keys of two requests that pass their checks come of different strings, whenever the
requests differ, exactly if the two are not confused; and in every run in which no two strings
collide, whatever is answered as a duplicate is one, exactly if it is not confused with the request
whose block it is answered. -/
theorem dedup_tells_apart (E : Env) :
    (∀ (m m' : Message) (s s' : TokenState) (i j : Identity), m.identity = some i →
      m'.identity = some j → i.Sized → j.Sized → m.call.Passes m.now s → m'.call.Passes m'.now s' →
      ((m.preimage = m'.preimage → i = j) ↔ ¬i.Confusable j)) ∧
    ∀ (fee : Nat) (args : InitArgs) (clock : Nat) (log : List Entry) (s : TokenState),
      Run E fee args clock log s → CollisionFree E log →
      (∀ e ∈ log, ∀ i ∈ e.message.identity, i.Sized) →
      ∀ newer older again n, log = newer ++ again :: older → again.answer.duplicateOf = some n →
        ∃ first ∈ older, first.answer.block = some n ∧ ∃ i j, first.message.identity = some i ∧
          again.message.identity = some j ∧ (i = j ↔ ¬i.Confusable j) := by
  refine ⟨?_, ?_⟩
  · intro m m' s s' i j hi hj si sj pi pj
    rw [preimage_eq_iff hi hj si sj pi pj]
    exact ⟨fun h hc => hc.ne (h (.inr hc)), fun h hij => hij.resolve_right h⟩
  · intro fee args clock log s run hfree hsized newer older again n hlog hdup
    obtain ⟨first, hfirst, hblock, pi, pj, i, j, hi, hj, hsame⟩ := run.duplicate_of hfree hlog hdup
    refine ⟨first, hfirst, hblock, i, j, hi, hj, ?_⟩
    have hmem : ∀ e ∈ again :: older, e ∈ log := fun e he =>
      hlog ▸ List.mem_append_right newer he
    have si := hsized first (hmem _ (List.mem_cons_of_mem _ hfirst)) i hi
    have sj := hsized again (hmem _ (List.mem_cons_self ..)) j hj
    have heither := (preimage_eq_iff hi hj si sj pi pj).1 hsame
    exact ⟨fun h hc => hc.ne h, fun h => heither.resolve_right h⟩

/-- The transfer of one unit, with a memo of no bytes. -/
def hollow : Message :=
  ⟨5, 7, .icrc1Transfer ⟨none, ⟨3, none⟩, 1, none, some [], some 5⟩⟩

theorem twice_passes : twice.call.Passes twice.now soleGenesis := by
  refine ⟨rfl, fun c hc => ?_, by decide, by decide, by decide +kernel⟩
  cases hc
  decide

/-- The request with a memo of no bytes is answered with the block of the one without a memo. -/
theorem hollow_is_duplicate :
    (∃ log, Run plainEnv 0 soleAllocation 5 log (step plainEnv twice soleGenesis).2) ∧
      (step plainEnv twice soleGenesis).1.block = some 1 ∧
      (step plainEnv hollow (step plainEnv twice soleGenesis).2).1.duplicateOf = some 1 ∧
      twice.preimage = hollow.preimage ∧ twice.identity ≠ hollow.identity := by
  have hgenesis : Run plainEnv 0 soleAllocation 0 [] soleGenesis := .genesis soleGenesis_exec
  refine ⟨⟨_, .step (m := twice) hgenesis (by decide) (by decide)⟩, ?_, ?_, ?_, ?_⟩
  · decide +kernel
  · decide +kernel
  · decide +kernel
  · decide +kernel

/-- The transfer of two units. -/
def dearer : Message := ⟨5, 7, .icrc1Transfer ⟨none, ⟨3, none⟩, 2, none, none, some 5⟩⟩

/-- A message of a run, with the states around it. -/
def entryOf (m : Message) (s : TokenState) : Entry :=
  ⟨m, s, (step plainEnv m s).1, (step plainEnv m s).2⟩

theorem dedup_tells_apart_twice :
    let first := entryOf twice soleGenesis
    let again := entryOf twice first.after
    twice.preimage ≠ dearer.preimage ∧ ∃ e ∈ [first], e.answer.block = some 1 ∧
      ∃ i j, e.message.identity = some i ∧ again.message.identity = some j ∧
        (i = j ↔ ¬i.Confusable j) := by
  intro first again
  have hsized : ∀ i ∈ twice.identity, i.Sized := by
    intro i hi
    cases hi
    exact ⟨nofun, by decide, nofun, by decide⟩
  have hgenesis : Run plainEnv 0 soleAllocation 0 [] soleGenesis := .genesis soleGenesis_exec
  have hrun := Run.step (m := twice) (Run.step (m := twice) hgenesis (by decide) (by decide))
    (by decide) (by decide)
  have hlog : ∀ e ∈ [again, first], e.message = twice := by
    intro e he
    rcases List.mem_cons.1 he with rfl | he
    · rfl
    · exact List.mem_singleton.1 he ▸ rfl
  have hfree : CollisionFree plainEnv [again, first] := by
    intro e he e' he' x hx y hy _
    rw [hlog e he] at hx
    rw [hlog e' he'] at hy
    exact Option.some.inj (hx.symm.trans hy)
  have hdup : again.answer.duplicateOf = some 1 := by decide +kernel
  refine ⟨fun hsame => ?_, (dedup_tells_apart plainEnv).2 0 soleAllocation 5 [again, first] _ hrun hfree
    (fun e he i hi => hsized i (hlog e he ▸ hi)) [] [first] again 1 rfl hdup⟩
  have hpasses : dearer.call.Passes dearer.now soleGenesis := by
    refine ⟨rfl, fun c hc => ?_, by decide, by decide, by decide +kernel⟩
    cases hc
    decide
  have hpair := (dedup_tells_apart plainEnv).1 twice dearer soleGenesis soleGenesis _ _ rfl rfl
    (hsized _ rfl) ⟨nofun, by decide, nofun, by decide⟩ twice_passes hpasses
  exact absurd (hpair.2 (fun h => nomatch h.rest) hsame) (by decide)

end StshProtocol.Token
