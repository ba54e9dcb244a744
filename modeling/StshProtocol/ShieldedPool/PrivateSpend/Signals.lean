import StshProtocol.NullifierRegistry.Runs
import StshProtocol.ShieldedPool.PrivateSpend.Security

/-! The nine public signals of a spend bind it.

Each is a canonical encoding, so that none has an alias the verifier would reduce to it, and
together they determine what is spent, into what, and to whom it is paid: a recipient of any length
is told from every other by the length in its last byte, and a payout from none by its amount. -/
namespace StshProtocol.ShieldedPool.PrivateSpend
open Foundation NullifierRegistry Handler

/-! ### Padded strings -/

section
variable {as bs : Bytes} {x y : Nat}

theorem ofLe_zeros (n : Nat) : Bytes.ofLe (List.replicate n 0) = 0 := by
  induction n with
  | zero => rfl
  | succ n ih => rw [List.replicate_succ, Bytes.ofLe, ih]; rfl

theorem length_padTo32 (h : as.length ≤ 32) : (padTo32 as).length = 32 := by
  rw [padTo32, List.length_append, List.length_replicate]
  omega

theorem ofLe_padTo32 (as : Bytes) : Bytes.ofLe (padTo32 as) = Bytes.ofLe as := by
  rw [padTo32, Bytes.ofLe_append, ofLe_zeros, Nat.mul_zero, Nat.add_zero]

theorem padTo32_inj (hlen : as.length = bs.length) (h : padTo32 as = padTo32 bs) : as = bs :=
  (List.append_inj h hlen).1

/-- A short string, padded, is below the modulus. -/
theorem canonical_padTo32 (h : as.length ≤ 31) : Canonical (padTo32 as) := by
  refine ⟨length_padTo32 (Nat.le_succ_of_le h), ?_⟩
  rw [ofLe_padTo32]
  refine Nat.lt_trans (Nat.lt_of_lt_of_le (Bytes.ofLe_lt as) ?_) (by decide : 256 ^ 31 < frModulus)
  exact Nat.pow_le_pow_right (by decide) h

/-! ### Amounts -/

theorem u128ToFrLe_eq (x : Nat) : u128ToFrLe x = padTo32 (Bytes.toLe 16 x) := by
  rw [u128ToFrLe, Bytes.toBe, List.reverse_reverse]

theorem canonical_u128ToFrLe (x : Nat) : Canonical (u128ToFrLe x) := by
  rw [u128ToFrLe_eq]
  exact canonical_padTo32 (by rw [Bytes.length_toLe]; decide)

theorem u128ToFrLe_inj (hx : x ≤ u128Max) (hy : y ≤ u128Max) (h : u128ToFrLe x = u128ToFrLe y) :
    x = y := by
  have hle : ∀ {z : Nat}, z ≤ u128Max → Bytes.ofLe (u128ToFrLe z) = z := by
    intro z hz
    have hlt : z < 256 ^ 16 := Nat.lt_of_le_of_lt hz (by decide)
    rw [u128ToFrLe_eq, ofLe_padTo32, Bytes.ofLe_toLe, Nat.mod_eq_of_lt hlt]
  rw [← hle hx, ← hle hy, h]

/-! ### Hashes -/

theorem length_le32 (x : Bytes32) : (le32 x).length = 32 := Bytes.length_toBe _ _

theorem le32_inj {x y : Bytes32} (h : le32 x = le32 y) : x = y := by
  rw [← MerkleTree.hash32_hashBytes x, ← MerkleTree.hash32_hashBytes y]
  exact congrArg MerkleTree.hash32 h

/-! ### Recipients -/

/-- The signal of a recipient: its bytes, and their number at the end. -/
def recipientSignal (slice : Bytes) : Bytes := (padTo32 slice).take 31 ++ [UInt8.ofNat slice.length]

theorem recipientSignal_eq (h : as.length ≤ 29) :
    recipientSignal as = as ++ List.replicate (31 - as.length) 0 ++ [UInt8.ofNat as.length] := by
  rw [recipientSignal, padTo32, List.take_append, List.take_of_length_le (by omega),
    List.take_replicate, Nat.min_eq_left (by omega)]

theorem canonical_recipientSignal (h : as.length ≤ 29) : Canonical (recipientSignal as) := by
  rw [recipientSignal_eq h]
  have hlen : (as ++ List.replicate (31 - as.length) (0 : UInt8)).length = 31 := by
    rw [List.length_append, List.length_replicate]
    omega
  refine ⟨by rw [List.length_append, hlen]; rfl, ?_⟩
  -- The length byte is below the modulus' first byte.
  have hlow := Bytes.ofLe_lt (as ++ List.replicate (31 - as.length) 0)
  have hbyte : (UInt8.ofNat as.length).toNat = as.length := by
    rw [UInt8.toNat_ofNat']
    omega
  have hmodulus : 30 * 256 ^ 31 ≤ frModulus := by decide
  rw [Bytes.ofLe_append, hlen, Bytes.ofLe, hbyte, Bytes.ofLe, Nat.mul_zero, Nat.add_zero]
  rw [hlen] at hlow
  have hhigh := Nat.mul_le_mul_left (256 ^ 31) h
  omega

/-- Recipients of any two lengths are told apart. -/
theorem recipientSignal_inj (ha : as.length ≤ 29) (hb : bs.length ≤ 29)
    (h : recipientSignal as = recipientSignal bs) : as = bs := by
  rw [recipientSignal_eq ha, recipientSignal_eq hb] at h
  obtain ⟨hfront, hlast⟩ := List.append_inj' h rfl
  have hlen : as.length = bs.length := by
    have hbytes := congrArg UInt8.toNat (List.singleton_inj.1 hlast)
    rw [UInt8.toNat_ofNat', UInt8.toNat_ofNat'] at hbytes
    omega
  exact (List.append_inj hfront hlen).1

end

/-! ### The vector -/

/-- The amounts are words of 128 bits. -/
structure PrivateSpendArgs.Sized (args : PrivateSpendArgs) : Prop where
  fee : args.fee ≤ u128Max
  publicAmount : ∀ payout ∈ args.publicPayout, payout.publicAmount ≤ u128Max

/-- What the proof is bound to, of some arguments. A principal is its bytes, and the zero
subaccount is the default one. -/
structure SpendBinding where
  anchor : Bytes32
  nullifiers : List Bytes32
  outputCommitments : List Bytes32
  fee : Nat
  payout : Option (Bytes × Bytes32 × Nat)
  deriving DecidableEq

def PrivateSpendArgs.binding (args : PrivateSpendArgs) : SpendBinding where
  anchor := args.envelope.rootReference
  nullifiers := args.nullifiers
  outputCommitments := args.outputCommitments
  fee := args.fee
  payout := args.publicPayout.map fun p =>
    (Token.principalSlice p.destination, p.destinationSubaccount.getD 0, p.publicAmount)

section
variable {args args' : PrivateSpendArgs} {signals : List Bytes} {publicAmount now : Nat}
  {p : FeePolicy.GovernanceFeeParams} {s t : SpendState}
  {payout payout' : Option PrivateSpendPublicPayout}

/-- An accepted vector, by its nine signals. -/
structure Builds (args : PrivateSpendArgs) (signals : List Bytes) (nullifier oc1 oc2 : Bytes32)
    (publicAmount : Nat) : Prop where
  nullifiers : args.nullifiers = [nullifier]
  outputs : args.outputCommitments = [oc1, oc2]
  amount : privateSpendPublicAmount args = .ok publicAmount
  canonical : ∀ x ∈ [args.envelope.rootReference, nullifier, oc1, oc2],
    MerkleTree.isCanonicalFrLe (le32 x) = true
  signals : signals = [le32 args.envelope.rootReference, le32 nullifier, le32 oc1, le32 oc2,
    u128ToFrLe publicAmount, u128ToFrLe args.fee, (encodeRecipientSignals args.publicPayout).1,
    (encodeRecipientSignals args.publicPayout).2.1, (encodeRecipientSignals args.publicPayout).2.2]

theorem checkCanonicalSignal_ok {x : Bytes32} {label : String}
    (h : checkCanonicalSignal (x, label) = .ok ()) :
    MerkleTree.isCanonicalFrLe (le32 x) = true := by
  rw [checkCanonicalSignal] at h
  by_contra hnot
  rw [if_neg hnot] at h
  exact nomatch h

theorem builds_of_ok (h : buildSpendPublicSignals args = .ok signals) :
    ∃ nullifier oc1 oc2 publicAmount, Builds args signals nullifier oc1 oc2 publicAmount := by
  rw [buildSpendPublicSignals] at h
  split at h
  · next nullifier oc1 oc2 hnf hoc =>
    obtain ⟨publicAmount, hamount, h⟩ := bind_ok h
    obtain ⟨_, hcheck, h⟩ := bind_ok h
    have hchecked : ∀ x y, (x, y) ∈ _ → MerkleTree.isCanonicalFrLe (le32 x) = true :=
      fun x y hmem => checkCanonicalSignal_ok (forM_ok hcheck (x, y) hmem)
    have hcanonical : ∀ x ∈ [args.envelope.rootReference, nullifier, oc1, oc2],
        MerkleTree.isCanonicalFrLe (le32 x) = true := by
      simp only [List.forall_mem_cons]
      exact ⟨hchecked _ "anchor" (by simp), hchecked _ "nullifier_hash" (by simp),
        hchecked _ "output_commitment_1" (by simp), hchecked _ "output_commitment_2" (by simp),
        fun _ hx => absurd hx List.not_mem_nil⟩
    have hsignals := Except.ok.inj h
    exact ⟨nullifier, oc1, oc2, publicAmount, hnf, hoc, hamount, hcanonical, hsignals.symm⟩
  · exact nomatch h

theorem builds_of_validate
    (h : (validatePrivateSpendStatic now args p).exec s = .ok (.ok signals, t)) :
    ∃ nullifier oc1 oc2 publicAmount, Builds args signals nullifier oc1 oc2 publicAmount := by
  rw [validatePrivateSpendStatic] at h
  obtain ⟨_, _, _, h⟩ := bind_ok_iff.1 h
  obtain ⟨_, _, _, h⟩ := bind_ok_iff.1 h
  obtain ⟨_, _, _, h⟩ := bind_ok_iff.1 h
  obtain ⟨_, _, _, h⟩ := bind_ok_iff.1 h
  obtain ⟨built, _, hbuild, h⟩ := bind_ok_iff.1 h
  obtain ⟨_, _, _, h⟩ := bind_ok_iff.1 h
  rw [(pure_ok_iff.1 h).1]
  exact builds_of_ok (lift_ok_iff.1 hbuild).1

/-! ### Binding -/

/-- A payout pays something, and nothing is paid without one. -/
theorem publicAmount_ok (h : privateSpendPublicAmount args = .ok publicAmount) :
    (args.publicPayout = none ∧ publicAmount = 0) ∨
      ∃ payout, args.publicPayout = some payout ∧ payout.publicAmount = publicAmount ∧
        publicAmount ≠ 0 := by
  rw [privateSpendPublicAmount] at h
  cases hpayout : args.publicPayout with
  | none =>
    rw [hpayout] at h
    exact .inl ⟨rfl, (Except.ok.inj h).symm⟩
  | some payout =>
    simp only [hpayout] at h
    by_cases hzero : payout.publicAmount = 0
    · rw [if_pos hzero] at h
      exact nomatch h
    · rw [if_neg hzero] at h
      have hamount := Except.ok.inj h
      exact .inr ⟨payout, rfl, hamount, hamount ▸ hzero⟩

theorem canonical_encodeRecipientSignals (payout : Option PrivateSpendPublicPayout) :
    Canonical (encodeRecipientSignals payout).1 ∧ Canonical (encodeRecipientSignals payout).2.1 ∧
      Canonical (encodeRecipientSignals payout).2.2 := by
  cases payout with
  | none =>
    have hzero : Canonical (List.replicate 32 0) := 
      canonical_padTo32 (show ([] : Bytes).length ≤ 31 by decide)
    exact ⟨hzero, hzero, hzero⟩
  | some p =>
    have hsub : (le32 (p.destinationSubaccount.getD 0)).length = 32 := length_le32 _
    refine ⟨canonical_recipientSignal (Token.length_principalSlice _), canonical_padTo32 ?_,
      canonical_padTo32 ?_⟩
    · rw [List.length_take, hsub]
      decide
    · rw [List.length_drop, hsub]
      decide

/-- The three signals of a recipient give back its bytes and its subaccount. -/
theorem encodeRecipientSignals_inj {p p' : PrivateSpendPublicPayout}
    (h : encodeRecipientSignals (some p) = encodeRecipientSignals (some p')) :
    Token.principalSlice p.destination = Token.principalSlice p'.destination ∧
      p.destinationSubaccount.getD 0 = p'.destinationSubaccount.getD 0 := by
  have hrecipient : recipientSignal (Token.principalSlice p.destination) =
      recipientSignal (Token.principalSlice p'.destination) := congrArg (·.1) h
  refine ⟨recipientSignal_inj (Token.length_principalSlice _) (Token.length_principalSlice _) hrecipient, ?_⟩
  have hlen := length_le32 (p.destinationSubaccount.getD 0)
  have hlen' := length_le32 (p'.destinationSubaccount.getD 0)
  have hlo := padTo32_inj (by rw [List.length_take, List.length_take, hlen, hlen'])
    (congrArg (·.2.1) h)
  have hhi := padTo32_inj (by rw [List.length_drop, List.length_drop, hlen, hlen'])
    (congrArg (·.2.2) h)
  apply le32_inj
  rw [← List.take_append_drop 16 (le32 (p.destinationSubaccount.getD 0)), hlo, hhi,
    List.take_append_drop]

/-- What is signed for a recipient is what the binding keeps of it. -/
theorem encodeRecipientSignals_congr
    (h : args.binding.payout = args'.binding.payout) :
    encodeRecipientSignals args.publicPayout = encodeRecipientSignals args'.publicPayout := by
  simp only [PrivateSpendArgs.binding] at h
  cases hpayout : args.publicPayout with
  | none =>
    rw [hpayout, Option.map_none, eq_comm, Option.map_eq_none_iff] at h
    rw [h]
  | some p =>
    rw [hpayout, Option.map_some, eq_comm, Option.map_eq_some_iff] at h
    obtain ⟨p', hpayout', h⟩ := h
    simp only [Prod.mk.injEq] at h
    rw [hpayout']
    simp only [encodeRecipientSignals, h.1, h.2.1]

theorem Builds.all_canonical {nullifier oc1 oc2 : Bytes32}
    (b : Builds args signals nullifier oc1 oc2 publicAmount) : ∀ x ∈ signals, Canonical x := by
  have hle : ∀ x ∈ [args.envelope.rootReference, nullifier, oc1, oc2], Canonical (le32 x) :=
    fun x hx => ⟨length_le32 x, (isCanonicalFrLe_iff (length_le32 x)).1 (b.canonical x hx)⟩
  obtain ⟨hrecipient, hlo, hhi⟩ := canonical_encodeRecipientSignals args.publicPayout
  simp only [List.forall_mem_cons] at hle
  obtain ⟨hroot, hnullifier, hoc1, hoc2, -⟩ := hle
  rw [b.signals]
  simp only [List.forall_mem_cons]
  exact ⟨hroot, hnullifier, hoc1, hoc2, canonical_u128ToFrLe _, canonical_u128ToFrLe _, hrecipient,
    hlo, hhi, fun _ hx => absurd hx List.not_mem_nil⟩

theorem payoutAmount_eq {publicAmount' : Nat} (h : privateSpendPublicAmount args = .ok publicAmount)
    (h' : privateSpendPublicAmount args' = .ok publicAmount')
    (hpayout : args.binding.payout = args'.binding.payout) : publicAmount = publicAmount' := by
  simp only [PrivateSpendArgs.binding] at hpayout
  rcases publicAmount_ok h with ⟨hnone, rfl⟩ | ⟨p, hp, rfl, -⟩ <;>
    rcases publicAmount_ok h' with ⟨hnone', rfl⟩ | ⟨p', hp', rfl, -⟩
  · rfl
  · rw [hnone, hp'] at hpayout
    exact nomatch hpayout
  · rw [hnone', hp] at hpayout
    exact nomatch hpayout
  · rw [hp, hp', Option.map_some, Option.map_some, Option.some.injEq] at hpayout
    exact congrArg (·.2.2) hpayout

/-- The payouts agree that the signals of two spends agree on. -/
theorem payout_eq {publicAmount' : Nat}
    (hsized : args.Sized) (hsized' : args'.Sized)
    (h : privateSpendPublicAmount args = .ok publicAmount)
    (h' : privateSpendPublicAmount args' = .ok publicAmount')
    (hamount : u128ToFrLe publicAmount = u128ToFrLe publicAmount')
    (hrecipient : encodeRecipientSignals args.publicPayout =
      encodeRecipientSignals args'.publicPayout) :
    args.binding.payout = args'.binding.payout := by
  have hle : ∀ {a : PrivateSpendArgs} {x : Nat}, a.Sized → privateSpendPublicAmount a = .ok x →
      x ≤ u128Max := by
    intro a x hs hx
    rcases publicAmount_ok hx with ⟨-, rfl⟩ | ⟨payout, hpayout, rfl, -⟩
    · exact Nat.zero_le _
    · exact hs.publicAmount payout hpayout
  have hsame := u128ToFrLe_inj (hle hsized h) (hle hsized' h') hamount
  subst hsame
  simp only [PrivateSpendArgs.binding]
  rcases publicAmount_ok h with ⟨hnone, hzero⟩ | ⟨p, hp, hamt, hpos⟩ <;>
    rcases publicAmount_ok h' with ⟨hnone', hzero'⟩ | ⟨p', hp', hamt', hpos'⟩
  · rw [hnone, hnone']
  · exact absurd hzero hpos'
  · exact absurd hzero' hpos
  · rw [hp, hp'] at hrecipient
    obtain ⟨hslice, hsub⟩ := encodeRecipientSignals_inj hrecipient
    rw [hp, hp', Option.map_some, Option.map_some, hslice, hsub, hamt, hamt']

/-- Two spends are signed alike exactly when they are bound alike. -/
theorem Builds.eq_iff {signals' : List Bytes} {nullifier oc1 oc2 nullifier' oc1' oc2' : Bytes32}
    {publicAmount' : Nat} (hsized : args.Sized) (hsized' : args'.Sized)
    (b : Builds args signals nullifier oc1 oc2 publicAmount)
    (b' : Builds args' signals' nullifier' oc1' oc2' publicAmount') :
    signals = signals' ↔ args.binding = args'.binding := by
  rw [b.signals, b'.signals]
  constructor
  · intro h
    simp only [List.cons.injEq, and_true] at h
    obtain ⟨hroot, hnullifier, hoc1, hoc2, hamount, hfee, hrecipient, hlo, hhi⟩ := h
    have hpayout := payout_eq hsized hsized' b.amount b'.amount hamount
      (Prod.ext hrecipient (Prod.ext hlo hhi))
    have hfees := u128ToFrLe_inj hsized.fee hsized'.fee hfee
    simp only [PrivateSpendArgs.binding] at hpayout ⊢
    rw [le32_inj hroot, b.nullifiers, b'.nullifiers, b.outputs, b'.outputs, le32_inj hnullifier,
      le32_inj hoc1, le32_inj hoc2, hfees, hpayout]
  · intro h
    have hpayout := congrArg SpendBinding.payout h
    have hnullifiers := congrArg SpendBinding.nullifiers h
    have houtputs := congrArg SpendBinding.outputCommitments h
    have hroot : args.envelope.rootReference = args'.envelope.rootReference :=
      congrArg SpendBinding.anchor h
    have hfee : args.fee = args'.fee := congrArg SpendBinding.fee h
    simp only [PrivateSpendArgs.binding, b.nullifiers, b'.nullifiers] at hnullifiers
    simp only [PrivateSpendArgs.binding, b.outputs, b'.outputs] at houtputs
    obtain ⟨rfl, rfl⟩ : oc1 = oc1' ∧ oc2 = oc2' := by simpa using houtputs
    rw [List.singleton_inj.1 hnullifiers, hroot, hfee, encodeRecipientSignals_congr hpayout,
      payoutAmount_eq b.amount b'.amount hpayout]

/-- Public signals bind the spend. The nine signals of an accepted spend are canonical, and two
accepted spends have the same ones exactly if they agree in all that is bound. -/
theorem signals_bind {now' : Nat} {p' : FeePolicy.GovernanceFeeParams} {s' t' : SpendState}
    {signals' : List Bytes} (hsized : args.Sized) (hsized' : args'.Sized)
    (h : (validatePrivateSpendStatic now args p).exec s = .ok (.ok signals, t))
    (h' : (validatePrivateSpendStatic now' args' p').exec s' = .ok (.ok signals', t')) :
    signals.length = 9 ∧ (∀ x ∈ signals, Canonical x) ∧
      (signals = signals' ↔ args.binding = args'.binding) := by
  obtain ⟨nullifier, oc1, oc2, publicAmount, b⟩ := builds_of_validate h
  obtain ⟨nullifier', oc1', oc2', publicAmount', b'⟩ := builds_of_validate h'
  exact ⟨by rw [b.signals]; rfl, b.all_canonical, Builds.eq_iff hsized hsized' b b'⟩

end

/-- A spend that pays out to a principal. -/
def exitArgs (destination : Principal) : PrivateSpendArgs where
  spendId := 7
  envelope := ⟨1, "groth16", 11, 5, 1, List.replicate 256 0⟩
  nullifiers := [1]
  outputCommitments := [2, 3]
  encryptedOutputs := [[], []]
  fee := 0
  publicPayout := some ⟨destination, none, 1000000⟩
  expectedDeploymentConfigHash := none

def exitState : SpendState where
  deposits := ⟨∅, ∅, ∅, ∅, ∅⟩
  spends := ⟨∅, ∅, ∅, ∅, ∅, ∅⟩
  lease := ⟨1, none⟩
  roots := ⟨(∅ : StableSet Bytes32).insert 5 (), none⟩
  recovery := ⟨Recovery.RecoveryCursor.complete.toBytes, 2, [], none⟩
  security := ⟨1, 11, 1, "groth16", none, none, none, none, some 3, false, 4⟩
  wiring := ⟨some 21, some 22, some 23, some 24, some 25, none⟩
  payouts := ⟨1, 0, none⟩
  admission := ⟨∅, none, ∅⟩
  attestation := .matched 3 11
  setVerifierInProgress := false
  accounting := .commit fun _ => 1000
  withdrawalNullifiers := ∅
  feeParams := .launchDefaults

/-- The signals of a spend that pays out to a principal, if it is accepted. -/
def exitSignals (destination : Principal) : Option (List Bytes) :=
  match (validatePrivateSpendStatic 5 (exitArgs destination) .launchDefaults).exec exitState with
  | .ok (.ok signals, _) => some signals
  | _ => none

theorem exitSignals_some {destination : Principal} {signals : List Bytes}
    (h : exitSignals destination = some signals) :
    ∃ t, (validatePrivateSpendStatic 5 (exitArgs destination) .launchDefaults).exec exitState =
      .ok (.ok signals, t) := by
  unfold exitSignals at h
  split at h
  · next t hexec =>
    cases h
    exact ⟨t, hexec⟩
  · cases h

theorem exitArgs_sized (destination : Principal) : (exitArgs destination).Sized where
  fee := Nat.zero_le _
  publicAmount payout h := by
    have heq : (⟨destination, none, 1000000⟩ : PrivateSpendPublicPayout) = payout :=
      Option.some.inj h
    rw [← heq]
    exact (by decide : 1000000 ≤ u128Max)

/-- The principals of the bytes 4 and 4, 0 are paid the same. -/
theorem signals_bind_trailing_zero : ∃ signals signals',
    exitSignals ((1#240 <<< 232) + (4#240 <<< 224)) = some signals ∧
      exitSignals ((2#240 <<< 232) + (4#240 <<< 224)) = some signals' ∧
      (∀ x ∈ signals, Canonical x) ∧ signals ≠ signals' := by
  have hsome : (exitSignals ((1#240 <<< 232) + (4#240 <<< 224))).isSome ∧
      (exitSignals ((2#240 <<< 232) + (4#240 <<< 224))).isSome := by decide +kernel
  obtain ⟨⟨signals, h⟩, signals', h'⟩ :=
    hsome.imp Option.isSome_iff_exists.1 Option.isSome_iff_exists.1
  obtain ⟨t, hexec⟩ := exitSignals_some h
  obtain ⟨t', hexec'⟩ := exitSignals_some h'
  obtain ⟨-, hcanonical, hbind⟩ :=
    signals_bind (exitArgs_sized _) (exitArgs_sized _) hexec hexec'
  refine ⟨signals, signals', h, h', hcanonical, fun heq => absurd (hbind.1 heq) ?_⟩
  decide +kernel

end StshProtocol.ShieldedPool.PrivateSpend
