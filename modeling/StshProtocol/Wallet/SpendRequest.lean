import StshProtocol.Vesting.State
import StshProtocol.Wallet.Text

/-! A spend's request, as it is kept for a replay, and what it is known by.

The last request of a spend is kept as an object of texts and numbers and read back before it is
sent again: bytes as hexadecimal digits, large numbers as decimals, the principal as its own text.
What was written is read (`deserialize_serialize`), so the arguments of the replayed call are the
same. The spend is known by a digest of its intent, whose parts are written one behind the other,
each behind its length; they can be told apart again (`intentPreimage_inj`). -/
namespace StshProtocol.Wallet.SpendRequest
open Foundation Vesting ShieldedPool

/-! ### The request -/

structure PublicPayout where
  destination : PrincipalBytes
  destinationSubaccount : Option (List UInt8)
  publicAmount : Int
  deriving DecidableEq, Repr

structure PrivateSpendRequest where
  spendId : Int
  circuitVersion : Nat
  proofSystemId : JsString
  verifyingKeyHash : List UInt8
  rootReference : List UInt8
  poolVersion : Nat
  proofBytes : List UInt8
  nullifiers : List (List UInt8)
  outputCommitments : List (List UInt8)
  encryptedOutputs : List (List UInt8)
  fee : Int
  publicPayout : Option PublicPayout
  expectedDeploymentConfigHash : Option (List UInt8)
  deriving DecidableEq, Repr

structure ProofEnvelope where
  circuitVersion : Nat
  proofSystemId : JsString
  verifyingKeyHash : List UInt8
  rootReference : List UInt8
  poolVersion : Nat
  proofBytes : List UInt8
  deriving DecidableEq, Repr

/-- What goes over the wire. -/
structure PrivateSpendArgs where
  spendId : Int
  envelope : ProofEnvelope
  nullifiers : List (List UInt8)
  outputCommitments : List (List UInt8)
  encryptedOutputs : List (List UInt8)
  fee : Int
  publicPayout : Option PublicPayout
  expectedDeploymentConfigHash : Option (List UInt8)
  deriving DecidableEq, Repr

/-- The arguments `privateSpend` makes of a request. -/
def privateSpendArgs (req : PrivateSpendRequest) : PrivateSpendArgs where
  spendId := req.spendId
  envelope :=
    { circuitVersion := req.circuitVersion
      proofSystemId := req.proofSystemId
      verifyingKeyHash := req.verifyingKeyHash
      rootReference := req.rootReference
      poolVersion := req.poolVersion
      proofBytes := req.proofBytes }
  nullifiers := req.nullifiers
  outputCommitments := req.outputCommitments
  encryptedOutputs := req.encryptedOutputs
  fee := req.fee
  publicPayout := req.publicPayout
  expectedDeploymentConfigHash := req.expectedDeploymentConfigHash

/-! ### The requests that are made -/

structure DeploymentAttestation where
  circuitVersion : Nat
  proofSystem : JsString
  vkHash : List UInt8
  poolVersion : Nat

structure SpendPayout where
  destination : PrincipalBytes
  subaccount : Option (List UInt8)

structure OutNote where
  leaf : List UInt8
  encrypted : List UInt8

/-- What `runSpendFlow` has when it makes the request. -/
structure SpendPlan where
  spendId : UInt64
  att : DeploymentAttestation
  acceptedRoot : List UInt8
  nullifier : List UInt8
  outNotes : List OutNote
  fee : Int
  payout : Option SpendPayout
  publicAmount : Int
  expectedDeploymentConfigHash : List UInt8

/-- The request, still without a proof. -/
def SpendPlan.request (p : SpendPlan) : PrivateSpendRequest where
  spendId := p.spendId.toNat
  circuitVersion := p.att.circuitVersion
  proofSystemId := p.att.proofSystem
  verifyingKeyHash := p.att.vkHash
  rootReference := p.acceptedRoot
  poolVersion := p.att.poolVersion
  proofBytes := []
  nullifiers := [p.nullifier]
  outputCommitments := p.outNotes.map (·.leaf)
  encryptedOutputs := p.outNotes.map (·.encrypted)
  fee := p.fee
  publicPayout := p.payout.map fun payout =>
    { destination := payout.destination
      destinationSubaccount := payout.subaccount
      publicAmount := p.publicAmount }
  expectedDeploymentConfigHash := some p.expectedDeploymentConfigHash

/-- The requests that are kept: before the proof, with it, and under a fresh id. -/
inductive Kept : PrivateSpendRequest → Prop where
  | planned (p : SpendPlan) : Kept p.request
  | proved (p : SpendPlan) (proofBytes : List UInt8) : Kept {p.request with proofBytes := proofBytes}
  | freshId {req : PrivateSpendRequest} (h : Kept req) (newSpendId : UInt64) :
      Kept {req with spendId := newSpendId.toNat}

/-! ### The stored object -/

structure SerializedPayout where
  destination : JsString
  destinationSubaccount : Option JsString
  publicAmount : JsString
  deriving DecidableEq, Repr

/-- A value of a stored object. -/
inductive Value where
  | number (n : Nat)
  | text (s : JsString)
  | texts (l : List JsString)
  | payout (p : Option SerializedPayout)
  deriving DecidableEq, Repr

/-- An object, by its keys. -/
abbrev Stored : Type := List (String × Value)

def Stored.get (o : Stored) (key : String) : Option Value := (o.find? (·.1 == key)).map (·.2)

def Stored.number (o : Stored) (key : String) : Option Nat :=
  match o.get key with
  | some (.number n) => some n
  | _ => none

def Stored.text (o : Stored) (key : String) : Option JsString :=
  match o.get key with
  | some (.text s) => some s
  | _ => none

def Stored.texts (o : Stored) (key : String) : Option (List JsString) :=
  match o.get key with
  | some (.texts l) => some l
  | _ => none

def Stored.payout (o : Stored) (key : String) : Option (Option SerializedPayout) :=
  match o.get key with
  | some (.payout p) => some p
  | _ => none

/-- The text of a principal, and reading it. -/
structure PrincipalText where
  toText : PrincipalBytes → JsString
  fromText : JsString → Option PrincipalBytes

/-- A principal is read from its text. -/
def PrincipalText.Reads (T : PrincipalText) : Prop := ∀ p, T.fromText (T.toText p) = some p

def serializeSpendRequest (T : PrincipalText) (req : PrivateSpendRequest) : Stored :=
  [("spendId", .text (decimal req.spendId)),
    ("circuitVersion", .number req.circuitVersion),
    ("proofSystemId", .text req.proofSystemId),
    ("verifyingKeyHash", .text (bytesToHex req.verifyingKeyHash)),
    ("rootReference", .text (bytesToHex req.rootReference)),
    ("poolVersion", .number req.poolVersion),
    ("proofBytes", .text (bytesToHex req.proofBytes)),
    ("nullifiers", .texts (req.nullifiers.map bytesToHex)),
    ("outputCommitments", .texts (req.outputCommitments.map bytesToHex)),
    ("encryptedOutputs", .texts (req.encryptedOutputs.map bytesToHex)),
    ("fee", .text (decimal req.fee)),
    ("publicPayout", .payout (req.publicPayout.map fun payout =>
      { destination := T.toText payout.destination
        destinationSubaccount := payout.destinationSubaccount.map bytesToHex
        publicAmount := decimal payout.publicAmount })),
    -- An absent hash and one without bytes are written alike.
    ("expectedDeploymentConfigHash", .text ((req.expectedDeploymentConfigHash.map bytesToHex).getD []))]

def deserializePayout (T : PrincipalText) : Option SerializedPayout → Option (Option PublicPayout)
  | none => some none
  | some p => do
    let destination ← T.fromText p.destination
    let publicAmount ← bigInt p.publicAmount
    return some {destination := destination
                 destinationSubaccount := p.destinationSubaccount.map unhex
                 publicAmount := publicAmount}

/-- No result where the code throws. Keys it does not ask for are not looked at. -/
def deserializeSpendRequest (T : PrincipalText) (s : Stored) : Option PrivateSpendRequest := do
  let spendId ← (s.text "spendId").bind bigInt
  let circuitVersion ← s.number "circuitVersion"
  let proofSystemId ← s.text "proofSystemId"
  let verifyingKeyHash ← s.text "verifyingKeyHash"
  let rootReference ← s.text "rootReference"
  let poolVersion ← s.number "poolVersion"
  let proofBytes ← s.text "proofBytes"
  let nullifiers ← s.texts "nullifiers"
  let outputCommitments ← s.texts "outputCommitments"
  let encryptedOutputs ← s.texts "encryptedOutputs"
  let fee ← (s.text "fee").bind bigInt
  let publicPayout ← (s.payout "publicPayout").bind (deserializePayout T)
  let expectedDeploymentConfigHash ← s.text "expectedDeploymentConfigHash"
  return {spendId := spendId
          circuitVersion := circuitVersion
          proofSystemId := proofSystemId
          verifyingKeyHash := unhex verifyingKeyHash
          rootReference := unhex rootReference
          poolVersion := poolVersion
          proofBytes := unhex proofBytes
          nullifiers := nullifiers.map unhex
          outputCommitments := outputCommitments.map unhex
          encryptedOutputs := encryptedOutputs.map unhex
          fee := fee
          publicPayout := publicPayout
          expectedDeploymentConfigHash := some (unhex expectedDeploymentConfigHash)}

/-- The keys of older records that are no longer written. -/
def legacyKeys : List String := ["inputAmounts", "outputAmounts"]

def Stored.withoutLegacy (o : Stored) : Stored := o.filter fun e => !legacyKeys.contains e.1

/-! ### Reading back -/

theorem map_unhex (l : List (List UInt8)) : (l.map bytesToHex).map unhex = l := by
  induction l with
  | nil => rfl
  | cons bs l ih => rw [List.map_cons, List.map_cons, unhex_bytesToHex, ih]

theorem map_unhex_option (o : Option (List UInt8)) : (o.map bytesToHex).map unhex = o := by
  cases o with
  | none => rfl
  | some bs => exact congrArg some (unhex_bytesToHex bs)

theorem deserializePayout_eq {T : PrincipalText} (hT : T.Reads) (payout : Option PublicPayout) :
    deserializePayout T (payout.map fun payout =>
      { destination := T.toText payout.destination
        destinationSubaccount := payout.destinationSubaccount.map bytesToHex
        publicAmount := decimal payout.publicAmount }) = some payout := by
  cases payout with
  | none => rfl
  | some p =>
    simp only [Option.map_some, deserializePayout, hT p.destination, bigInt_decimal, map_unhex_option]
    rfl

theorem Kept.hash {req : PrivateSpendRequest} (h : Kept req) :
    ∃ bytes, req.expectedDeploymentConfigHash = some bytes := by
  induction h with
  | planned p => exact ⟨_, rfl⟩
  | proved p _ => exact ⟨_, rfl⟩
  | freshId _ _ ih => exact ih

/-- What was kept is read. -/
theorem deserialize_serialize {T : PrincipalText} (hT : T.Reads) {req : PrivateSpendRequest}
    (h : Kept req) : deserializeSpendRequest T (serializeSpendRequest T req) = some req := by
  obtain ⟨bytes, hhash⟩ := h.hash
  have hpayout := deserializePayout_eq hT req.publicPayout
  generalize hs : serializeSpendRequest T req = s
  have hid : (s.text "spendId").bind bigInt = some req.spendId := by
    rw [← hs]
    exact bigInt_decimal req.spendId
  have hfee : (s.text "fee").bind bigInt = some req.fee := by
    rw [← hs]
    exact bigInt_decimal req.fee
  have hpay : (s.payout "publicPayout").bind (deserializePayout T) = some req.publicPayout := by
    rw [← hs]
    exact hpayout
  have hconfig : s.text "expectedDeploymentConfigHash" = some (bytesToHex bytes) := by
    rw [← hs, serializeSpendRequest, hhash]
    rfl
  rw [deserializeSpendRequest, hid, hfee, hpay, hconfig,
    show s.number "circuitVersion" = some req.circuitVersion by rw [← hs]; rfl,
    show s.text "proofSystemId" = some req.proofSystemId by rw [← hs]; rfl,
    show s.text "verifyingKeyHash" = some (bytesToHex req.verifyingKeyHash) by rw [← hs]; rfl,
    show s.text "rootReference" = some (bytesToHex req.rootReference) by rw [← hs]; rfl,
    show s.number "poolVersion" = some req.poolVersion by rw [← hs]; rfl,
    show s.text "proofBytes" = some (bytesToHex req.proofBytes) by rw [← hs]; rfl,
    show s.texts "nullifiers" = some (req.nullifiers.map bytesToHex) by rw [← hs]; rfl,
    show s.texts "outputCommitments" = some (req.outputCommitments.map bytesToHex) by rw [← hs]; rfl,
    show s.texts "encryptedOutputs" = some (req.encryptedOutputs.map bytesToHex) by rw [← hs]; rfl]
  simp only [Option.bind_eq_bind, Option.bind_some, unhex_bytesToHex, map_unhex, ← hhash]
  rfl

theorem get_withoutLegacy (o : Stored) {key : String} (h : legacyKeys.contains key = false) :
    o.withoutLegacy.get key = o.get key := by
  rw [Stored.get, Stored.get, Stored.withoutLegacy, List.find?_filter]
  refine congrArg (Option.map _) (congrArg (List.find? · o) (funext fun e => ?_))
  by_cases he : e.1 = key
  · rw [he, h, beq_self_eq_true]
    rfl
  · rw [beq_eq_false_iff_ne.2 he]
    exact decide_eq_false fun h => Bool.false_ne_true h.2

/-- Keys of older records make no difference. -/
theorem deserialize_withoutLegacy (T : PrincipalText) (o : Stored) :
    deserializeSpendRequest T o.withoutLegacy = deserializeSpendRequest T o := by
  have hget := fun key (h : legacyKeys.contains key = false) => get_withoutLegacy o h
  simp only [deserializeSpendRequest, Stored.text, Stored.number, Stored.texts, Stored.payout,
    hget "spendId" (by decide), hget "circuitVersion" (by decide), hget "proofSystemId" (by decide),
    hget "verifyingKeyHash" (by decide), hget "rootReference" (by decide),
    hget "poolVersion" (by decide), hget "proofBytes" (by decide), hget "nullifiers" (by decide),
    hget "outputCommitments" (by decide), hget "encryptedOutputs" (by decide), hget "fee" (by decide),
    hget "publicPayout" (by decide), hget "expectedDeploymentConfigHash" (by decide)]

/-! ### What a spend is known by -/

/-- Bytes behind their length. -/
def lp (bytes : List UInt8) : List UInt8 := Bytes.toBe 4 bytes.length ++ bytes

def u128be (v : Nat) : List UInt8 := Bytes.toBe 16 v

structure IntentPayout where
  destination : PrincipalBytes
  subaccount : Option (List UInt8)
  publicAmount : Nat
  subaccount_width : ∀ sub ∈ subaccount, sub.length = 32
  amount_fits : publicAmount ≤ u128Max

/-- What the pool compares a spend by. -/
structure SpendIntent where
  nullifier : List UInt8
  outputLeaves : List (List UInt8)
  payout : Option IntentPayout
  fee : Nat
  nullifier_short : nullifier.length < 2 ^ 32
  leaves_short : ∀ leaf ∈ outputLeaves, leaf.length < 2 ^ 32
  fee_fits : fee ≤ u128Max

def payoutLimb : Option IntentPayout → List UInt8
  | none => []
  | some p => p.destination.asSlice ++ (p.subaccount.getD [] ++ u128be p.publicAmount)

/-- The bytes `intentFingerprintHex` hashes. -/
def intentPreimage (input : SpendIntent) : List UInt8 :=
  Token.tag "stsh.spend-intent.v1" ++ (lp input.nullifier ++ (input.outputLeaves.flatMap lp ++
    (lp (payoutLimb input.payout) ++ lp (u128be input.fee))))

theorem lp_append_inj {a b x y : List UInt8} (ha : a.length < 2 ^ 32) (hb : b.length < 2 ^ 32)
    (h : lp a ++ x = lp b ++ y) : a = b ∧ x = y := by
  rw [lp, lp, List.append_assoc, List.append_assoc] at h
  obtain ⟨hlen, hrest⟩ := List.append_inj h (by rw [Bytes.length_toBe, Bytes.length_toBe])
  have hlength : a.length = b.length := by
    rw [← Bytes.ofBe_toBe (w := 4) (n := a.length) (by omega), hlen, Bytes.ofBe_toBe (by omega)]
  exact List.append_inj hrest hlength

theorem lp_ne_nil (a : List UInt8) : lp a ≠ [] := by
  refine List.ne_nil_of_length_pos ?_
  rw [lp, List.length_append, Bytes.length_toBe]
  omega

/-- Texts behind their lengths can be told apart, and how many there are. -/
theorem flatMap_lp_inj {as bs : List (List UInt8)} (ha : ∀ a ∈ as, a.length < 2 ^ 32)
    (hb : ∀ b ∈ bs, b.length < 2 ^ 32) (h : as.flatMap lp = bs.flatMap lp) : as = bs := by
  induction as generalizing bs with
  | nil =>
    cases bs with
    | nil => rfl
    | cons b bs =>
      rw [List.flatMap_cons] at h
      exact absurd (List.append_eq_nil_iff.1 h.symm).1 (lp_ne_nil b)
  | cons a as ih =>
    cases bs with
    | nil =>
      rw [List.flatMap_cons] at h
      exact absurd (List.append_eq_nil_iff.1 h).1 (lp_ne_nil a)
    | cons b bs =>
      rw [List.flatMap_cons, List.flatMap_cons] at h
      obtain ⟨rfl, hrest⟩ := lp_append_inj (ha a List.mem_cons_self) (hb b List.mem_cons_self) h
      rw [ih (fun a h => ha a (List.mem_cons_of_mem _ h)) (fun b h => hb b (List.mem_cons_of_mem _ h))
        hrest]

theorem u128be_inj {m n : Nat} (hm : m ≤ u128Max) (hn : n ≤ u128Max) (h : u128be m = u128be n) :
    m = n := by
  have hlt : u128Max < 256 ^ 16 := by decide
  rw [u128be, u128be] at h
  rw [← Bytes.ofBe_toBe (Nat.lt_of_le_of_lt hm hlt), h, Bytes.ofBe_toBe (Nat.lt_of_le_of_lt hn hlt)]

theorem subaccount_length (p : IntentPayout) :
    p.subaccount = none ∧ (p.subaccount.getD []).length = 0 ∨
      (∃ sub, p.subaccount = some sub) ∧ (p.subaccount.getD []).length = 32 := by
  cases hsub : p.subaccount with
  | none => exact .inl ⟨rfl, rfl⟩
  | some sub => exact .inr ⟨⟨sub, rfl⟩, p.subaccount_width sub hsub⟩

theorem payoutLimb_length (p : IntentPayout) : (payoutLimb (some p)).length =
    p.destination.asSlice.length + (p.subaccount.getD []).length + 16 := by
  rw [payoutLimb, List.length_append, List.length_append, u128be, Bytes.length_toBe]
  omega

/-- A payout's parts are told apart: with a subaccount it is longer than any without. -/
theorem payoutLimb_some_inj {p q : IntentPayout} (h : payoutLimb (some p) = payoutLimb (some q)) :
    p = q := by
  have hp := p.destination.short
  have hq := q.destination.short
  have hlength := congrArg List.length h
  rw [payoutLimb_length, payoutLimb_length] at hlength
  have hsub : (p.subaccount.getD []).length = (q.subaccount.getD []).length := by
    rcases subaccount_length p with ⟨-, hps⟩ | ⟨-, hps⟩ <;>
      rcases subaccount_length q with ⟨-, hqs⟩ | ⟨-, hqs⟩ <;> omega
  obtain ⟨hdest, hrest⟩ := List.append_inj h (by omega)
  obtain ⟨hbytes, hamount⟩ := List.append_inj hrest hsub
  have hsame : p.subaccount = q.subaccount := by
    rcases subaccount_length p with ⟨hpn, hps⟩ | ⟨⟨s, hpn⟩, hps⟩ <;>
      rcases subaccount_length q with ⟨hqn, hqs⟩ | ⟨⟨t, hqn⟩, hqs⟩
    · rw [hpn, hqn]
    · omega
    · omega
    · rw [hpn, hqn] at hbytes ⊢
      exact congrArg some hbytes
  have hvalue := u128be_inj p.amount_fits q.amount_fits hamount
  obtain ⟨⟨dp, _⟩, sp, ap, _, _⟩ := p
  obtain ⟨⟨dq, _⟩, sq, aq, _, _⟩ := q
  cases hdest
  cases hsame
  cases hvalue
  rfl

theorem payoutLimb_inj {p q : Option IntentPayout} (h : payoutLimb p = payoutLimb q) : p = q := by
  cases p with
  | none =>
    cases q with
    | none => rfl
    | some q =>
      have hlength := congrArg List.length h
      rw [payoutLimb_length, payoutLimb, List.length_nil] at hlength
      omega
  | some p =>
    cases q with
    | none =>
      have hlength := congrArg List.length h
      rw [payoutLimb_length, payoutLimb, List.length_nil] at hlength
      omega
    | some q => rw [payoutLimb_some_inj h]

theorem payoutLimb_short (p : Option IntentPayout) : (payoutLimb p).length < 2 ^ 32 := by
  cases p with
  | none => exact (by decide : 0 < 2 ^ 32)
  | some p =>
    have hp := p.destination.short
    rw [payoutLimb_length]
    rcases subaccount_length p with ⟨-, hps⟩ | ⟨-, hps⟩ <;> omega

/-- The items of an intent, in the order they are written. -/
def SpendIntent.items (i : SpendIntent) : List (List UInt8) :=
  i.nullifier :: (i.outputLeaves ++ [payoutLimb i.payout, u128be i.fee])

theorem SpendIntent.items_short (i : SpendIntent) : ∀ item ∈ i.items, item.length < 2 ^ 32 := by
  intro item hitem
  rcases List.mem_cons.1 hitem with rfl | hitem
  · exact i.nullifier_short
  rcases List.mem_append.1 hitem with hleaf | hlast
  · exact i.leaves_short item hleaf
  rcases List.mem_cons.1 hlast with rfl | hfee
  · exact payoutLimb_short i.payout
  · rw [List.mem_singleton.1 hfee, u128be, Bytes.length_toBe]
    decide

theorem intentPreimage_eq (i : SpendIntent) :
    intentPreimage i = Token.tag "stsh.spend-intent.v1" ++ i.items.flatMap lp := by
  rw [intentPreimage, SpendIntent.items, List.flatMap_cons, List.flatMap_append]
  simp only [List.flatMap_cons, List.flatMap_nil, List.append_nil]

/-- Two intents are hashed alike only if they are the same. -/
theorem intentPreimage_inj {i j : SpendIntent} (h : intentPreimage i = intentPreimage j) : i = j := by
  rw [intentPreimage_eq, intentPreimage_eq] at h
  have hitems := flatMap_lp_inj i.items_short j.items_short (List.append_cancel_left h)
  obtain ⟨hnullifier, hrest⟩ := List.cons.inj hitems
  obtain ⟨hleaves, hlast⟩ := List.append_inj' hrest rfl
  obtain ⟨hpayout, hlast⟩ := List.cons.inj hlast
  have hpayout := payoutLimb_inj hpayout
  have hfee := u128be_inj i.fee_fits j.fee_fits (List.cons.inj hlast).1
  cases i
  cases j
  cases hnullifier
  cases hleaves
  cases hpayout
  cases hfee
  rfl

/-- A kept request is read as it was, so the replayed call has the same arguments, also from a record
with the older keys; and two intents are hashed alike only if they are the same. -/
theorem spend_replayed (T : PrincipalText) (hT : T.Reads) :
    (∀ req, Kept req →
      deserializeSpendRequest T (serializeSpendRequest T req) = some req ∧
      (deserializeSpendRequest T (serializeSpendRequest T req)).map privateSpendArgs =
        some (privateSpendArgs req) ∧
      ∀ o : Stored, o.withoutLegacy = serializeSpendRequest T req →
        deserializeSpendRequest T o = some req) ∧
    ∀ i j : SpendIntent, intentPreimage i = intentPreimage j → i = j := by
  refine ⟨fun req h => ?_, fun i j => intentPreimage_inj⟩
  have hread := deserialize_serialize hT h
  refine ⟨hread, by rw [hread]; rfl, fun o ho => ?_⟩
  rw [← deserialize_withoutLegacy, ho]
  exact hread

/-! ### A spend -/

section Sample

/-- The management canister's text as it is, other principals by their digits. -/
def sampleText : PrincipalText where
  toText p := if p.asSlice = [] then literal "aaaaa-aa" else bytesToHex p.asSlice
  fromText s :=
    if s = literal "aaaaa-aa" then some .management
    else if h : (unhex s).length ≤ 29 then some ⟨unhex s, h⟩ else none

theorem bytesToHex_ne_management (bs : List UInt8) : bytesToHex bs ≠ literal "aaaaa-aa" := by
  intro h
  have hbytes : bs = unhex (literal "aaaaa-aa") := by rw [← h, unhex_bytesToHex]
  rw [hbytes] at h
  exact absurd h (by decide +kernel)

theorem sampleText_reads : sampleText.Reads := by
  intro p
  simp only [sampleText]
  by_cases hp : p.asSlice = []
  · rw [if_pos hp, if_pos rfl]
    cases p
    cases hp
    rfl
  · rw [if_neg hp, if_neg (bytesToHex_ne_management _)]
    simp only [unhex_bytesToHex, dif_pos p.short]

def samplePlan : SpendPlan where
  spendId := 18446744073709551615
  att := ⟨2, literal "groth16-bn254", [0x0a, 0xff], 3⟩
  acceptedRoot := [1, 2]
  nullifier := [7]
  outNotes := [⟨[8], [0x80]⟩, ⟨[9], []⟩]
  fee := 10000
  payout := some ⟨.management, some (List.replicate 32 5)⟩
  publicAmount := 123456789
  expectedDeploymentConfigHash := List.replicate 32 0xab

/-- A spend that pays the management canister, with its proof, is replayed as it was. -/
theorem spend_replayed_once :
    (deserializeSpendRequest sampleText (serializeSpendRequest sampleText
      {samplePlan.request with proofBytes := [0xde, 0xad]})).map privateSpendArgs =
      some (privateSpendArgs {samplePlan.request with proofBytes := [0xde, 0xad]}) :=
  ((spend_replayed sampleText sampleText_reads).1 _ (.proved samplePlan [0xde, 0xad])).2.1

end Sample

end StshProtocol.Wallet.SpendRequest
