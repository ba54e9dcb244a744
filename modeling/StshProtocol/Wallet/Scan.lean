import StshProtocol.Foundation.Sha256
import StshProtocol.Wallet.MergeKept
import StshProtocol.Wallet.Mirror

/-! The wallet's scans.

A scan sweeps the leaves of the tree into a mirror, downloads the set of the spent nullifiers, and
looks at every leaf whose payload opens for the wallet. A note is found where the payload and the
leaf are what the wallet makes of the note itself (`FoundAt`), so that a note is found at every leaf
that holds it. Replies are taken as they come; a scan that is not answered does not end. -/
namespace StshProtocol.Wallet.Scan
open Foundation

/-! ### Notes of the second format -/

def noteNonceBytes : Nat := 16

/-- Of the first format. -/
def notePayloadBytes : Nat := 104

def notePayloadBytesV2 : Nat := 121

def notePayloadVersionV2 : UInt8 := 2

structure NoteV2Fields where
  nonce : Bytes
  value : Nat
  rho : Bytes
  rseed : Bytes
  recipientPk : Bytes
  deriving DecidableEq, Repr

/-- `LegacyNoteFormatUnsupportedError`. -/
inductive LegacyNoteFormat where
  | unsupported
  deriving DecidableEq, Repr

def noteFromBytesV2 (bytes : Bytes) : Except LegacyNoteFormat (Option NoteV2Fields) :=
  if bytes.length = notePayloadBytes then .error .unsupported
  else if bytes.length ≠ notePayloadBytesV2 ∨ bytes.head? ≠ some notePayloadVersionV2 then .ok none
  else .ok (some {
    nonce := bytes.extract 1 17
    value := Bytes.ofBe (bytes.extract 17 25)
    rho := bytes.extract 25 57
    rseed := bytes.extract 57 89
    recipientPk := bytes.extract 89 121 })

structure NoteSecrets where
  spendKey : Bytes
  rho : Bytes
  rseed : Bytes
  deriving DecidableEq, Repr

/-- What a scan is given: the decryption of payloads for the wallet, its master secret, HKDF-SHA256
to 96 bytes, and Poseidon. -/
structure NoteCrypto where
  tryDecrypt : Bytes → Option Bytes
  masterNoteSecret : Bytes
  hkdf : Bytes → Bytes → Bytes → Bytes
  poseidon : List Bytes → Bytes
  poseidon_length : ∀ inputs, (poseidon inputs).length = 32

def noteHkdfSaltV2 : String := "stsh-note-v2"

def noteHkdfInfoPrefixV2 : String := "stsh.note.v2"

def domainPoolCanisterId : Nat :=
  4523128485832663883733241601901871400518358776001584537546685574107874983936

def domainAssetId : Nat := 0

def domainCircuitVersion : Nat := 3

def domainNetworkId : Nat := 1

def pkDomain : Nat := 1

def nullifierDomain : Nat := 2

def commitmentDomain : Nat := 3

def merkleLeafDomain : Nat := 4

def bigintToFieldLe (n : Nat) : Bytes := Bytes.toLe 32 n

def reduceLeToField (bytes : Bytes) : Bytes :=
  Bytes.toLe 32 (Bytes.ofLe bytes % Circuits.fieldModulus)

section
variable (C : NoteCrypto)

def deriveNoteSecretsV2 (nonce : Bytes) : NoteSecrets :=
  let okm := C.hkdf C.masterNoteSecret (utf8 noteHkdfSaltV2) (utf8 noteHkdfInfoPrefixV2 ++ nonce)
  ⟨reduceLeToField (okm.extract 0 32), reduceLeToField (okm.extract 32 64),
    reduceLeToField (okm.extract 64 96)⟩

def domainSep : Bytes :=
  C.poseidon [bigintToFieldLe domainPoolCanisterId, bigintToFieldLe domainAssetId,
    bigintToFieldLe domainCircuitVersion, bigintToFieldLe domainNetworkId]

def derivePk (spendKey : Bytes) : Bytes := C.poseidon [spendKey, bigintToFieldLe pkDomain]

def merkleLeaf (value : Nat) (commitment : Bytes) : Bytes :=
  C.poseidon [bigintToFieldLe value, commitment, bigintToFieldLe merkleLeafDomain]

/-! ### Candidates -/

structure ScanPageEntry where
  index : Nat
  leaf : Bytes
  encryptedPayload : Bytes
  deriving DecidableEq, Repr

/-- What a leaf is to the wallet. -/
inductive Candidate where
  | foreign
  | quarantined (reason : QuarantineReason)
  | found (note : ScannedNote)
  deriving DecidableEq, Repr

def noteCommitment (fields : NoteV2Fields) : Bytes :=
  C.poseidon [domainSep C, bigintToFieldLe fields.value, fields.recipientPk, fields.rho, fields.rseed,
    bigintToFieldLe commitmentDomain]

def noteNullifier (fields : NoteV2Fields) : Bytes :=
  C.poseidon [domainSep C, (deriveNoteSecretsV2 C fields.nonce).spendKey, noteCommitment C fields,
    bigintToFieldLe nullifierDomain]

/-- `zero-dummy` notes are told apart, and the others by the spent set. -/
def noteState (spentSet : List Bytes) (fields : NoteV2Fields) : NoteLifecycleState :=
  if fields.value = 0 then .dummy
  else if noteNullifier C fields ∈ spentSet then .spent
  else .spendable

def foundNote (spentSet : List Bytes) (markVerified : Bool) (index : Nat) (fields : NoteV2Fields) :
    ScannedNote where
  leafIndex := index
  value := fields.value
  rho := fields.rho
  rseed := fields.rseed
  recipientPk := fields.recipientPk
  nonce := some fields.nonce
  commitment := some (noteCommitment C fields)
  nullifier := some (noteNullifier C fields)
  state := some (noteState C spentSet fields)
  verified := markVerified
  firstSeenAtNs := none
  firstSeenVia := none

/-- The body of the loop of `validateCandidates`. -/
def validateCandidate (spentSet : List Bytes) (markVerified : Bool) (entry : ScanPageEntry) : Candidate :=
  match C.tryDecrypt entry.encryptedPayload with
  | none => .foreign
  | some plaintext =>
    match noteFromBytesV2 plaintext with
    | .error .unsupported => .quarantined .legacyV1Payload
    | .ok none => .quarantined .malformedPayload
    | .ok (some fields) =>
      let secrets := deriveNoteSecretsV2 C fields.nonce
      if secrets.rho ≠ fields.rho ∨ secrets.rseed ≠ fields.rseed ∨
          derivePk C secrets.spendKey ≠ fields.recipientPk then
        .quarantined .fieldMismatch
      else if merkleLeaf C fields.value (noteCommitment C fields) ≠ entry.leaf then
        .quarantined .leafMismatch
      else .found (foundNote C spentSet markVerified entry.index fields)

def pushQuarantine (q : QuarantineState) (leafIndex : Nat) (reason : QuarantineReason) : QuarantineState :=
  let ring := q.ring ++ [⟨leafIndex, reason⟩]
  ⟨q.total + 1, if quarantineRingCap < ring.length then ring.tail else ring⟩

/-- What the loop of `validateCandidates` carries. -/
structure Candidates where
  notes : List ScannedNote
  quarantine : QuarantineState
  scannedUpTo : Nat
  deriving DecidableEq, Repr

def Candidates.take (found : Candidates) (index : Nat) : Candidate → Candidates
  | .foreign => {found with scannedUpTo := index + 1}
  | .quarantined reason => {found with
      quarantine := pushQuarantine found.quarantine index reason
      scannedUpTo := index + 1}
  | .found note => {found with notes := found.notes ++ [note], scannedUpTo := index + 1}

def validateCandidates (entries : List ScanPageEntry) (spentSet : List Bytes) (fromIndex : Nat)
    (markVerified : Bool) : Candidates :=
  entries.foldl
    (fun found entry =>
      if entry.index < fromIndex then found
      else found.take entry.index (validateCandidate C spentSet markVerified entry))
    ⟨[], ⟨0, []⟩, fromIndex⟩

end

/-! ### The sweep -/

inductive ScanError where
  | pageTooLarge
  | pageNotDense
  | beyondBound
  | leafLength
  | merkleBehindAcceptedRoot
  | mirror (e : MirrorError)
  | rootMismatch
  | nullifierLength
  | notIncreasing
  | incompleteDownload
  | staleSnapshot
  | deploymentAttestationUnavailable
  | wrongDeployment
  | verifiedSweepTooLarge
  | verifiedAnchorMismatch
  /-- A reply that never comes. -/
  | unanswered
  deriving DecidableEq, Repr

def defaultPageSize : Nat := 500

def maxVerifiedSweepLeaves : Nat := 92500

def validateScanEntries (bound : Nat) : Nat → List ScanPageEntry → Except ScanError Unit
  | _, [] => .ok ()
  | expected, entry :: page =>
    if entry.index ≠ expected then .error .pageNotDense
    else if bound ≤ entry.index then .error .beyondBound
    else if entry.leaf.length ≠ 32 then .error .leafLength
    else validateScanEntries bound (expected + 1) page

def validateScanPage (page : List ScanPageEntry) (start requestLimit bound : Nat) :
    Except ScanError Unit :=
  if requestLimit < page.length then .error .pageTooLarge
  else validateScanEntries bound start page

/-- The loop of `syncMirror` over the pages as they come: the entries from `start` on. -/
def sweepPages (bound pageSize : Nat) :
    List (List ScanPageEntry) → Nat → Except ScanError (List ScanPageEntry)
  | [], start => if start < bound then .error .unanswered else .ok []
  | page :: pages, start =>
    if start < bound then do
      let requestLimit := min pageSize (bound - start)
      validateScanPage page start requestLimit bound
      if page.length = 0 ∨ page.length < requestLimit then .ok page
      else do
        let entries ← sweepPages bound pageSize pages (start + page.length)
        .ok (page ++ entries)
    else .ok []

def word (bytes : Bytes) : ShieldedPool.Bytes32 := BitVec.ofNat 256 (Bytes.ofLe bytes)

def wordBytes (x : ShieldedPool.Bytes32) : Bytes := Bytes.toLe 32 x.toNat

def poseidon2 (C : NoteCrypto) (left right : ShieldedPool.Bytes32) : ShieldedPool.Bytes32 :=
  word (C.poseidon [wordBytes left, wordBytes right])

/-- The mirror of the entries that were swept. -/
def mirrorOf (entries : List ScanPageEntry) : Mirror :=
  entries.foldl (fun m entry => addLeaf m (entry.index, word entry.leaf)) ∅

def rootOf (C : NoteCrypto) (entries : List ScanPageEntry) (leafCount : Nat) : Except ScanError Bytes :=
  match mirrorRoot (poseidon2 C) (mirrorOf entries) leafCount with
  | .error e => .error (.mirror e)
  | .ok root => .ok (wordBytes root)

/-- `syncMirror`: the entries below the bound, which is the head's own unless one is given. -/
def syncMirror (head : MirrorHead) (pages : List (List ScanPageEntry)) (pageSize bound : Option Nat) :
    Except ScanError (List ScanPageEntry) :=
  let limit := bound.getD head.leafCount
  if head.leafCount < limit then .error .merkleBehindAcceptedRoot
  else sweepPages limit (pageSize.getD defaultPageSize) pages 0

/-! ### The spent set -/

def spentPageLimit : Nat := 500

def maxSpentDownloadRetries : Nat := 3

/-- Nullifiers of a page after the one before, each of 32 bytes and greater than the last. -/
def checkNullifiers : Option Bytes → List Bytes → Except ScanError Unit
  | _, [] => .ok ()
  | prev, v :: page =>
    if v.length ≠ 32 then .error .nullifierLength
    else if prev.any fun p => decide (v ≤ p) then .error .notIncreasing
    else checkNullifiers (some v) page

/-- The walk over the pages as they come, after all that came before. -/
def walkNullifiers : List (List Bytes) → List Bytes → Except ScanError (List Bytes)
  | [], _ => .error .unanswered
  | page :: pages, all => do
    checkNullifiers all.getLast? page
    if page.length < spentPageLimit then .ok (all ++ page) else walkNullifiers pages (all ++ page)

structure SpentReplies where
  countBefore : Nat
  pages : List (List Bytes)
  countAfter : Nat
  deriving DecidableEq, Repr

def downloadAttempts : Nat → List SpentReplies → Except ScanError (List Bytes)
  | 0, _ => .error .staleSnapshot
  | _ + 1, [] => .error .unanswered
  | n + 1, replies :: rest => do
    let all ← walkNullifiers replies.pages []
    if replies.countBefore = replies.countAfter then
      if all.length ≠ replies.countAfter then .error .incompleteDownload else .ok all
    else downloadAttempts n rest

def downloadSpentSet (replies : List SpentReplies) : Except ScanError (List Bytes) :=
  downloadAttempts maxSpentDownloadRetries replies

/-! ### Scans -/

def maxFullScanAttempts : Nat := 2

/-- What the canisters reply in one attempt. -/
structure ScanReplies where
  head : MirrorHead
  pages : List (List ScanPageEntry)
  spent : List SpentReplies
  countNow : Nat
  deriving DecidableEq, Repr

structure ScanOptions where
  fromIndex : Option Nat
  pageSize : Option Nat
  deriving DecidableEq, Repr

section
variable (C : NoteCrypto)

def scanAndValidateOnce (options : ScanOptions) (replies : ScanReplies) : Except ScanError ScanOutcome := do
  let entries ← syncMirror replies.head replies.pages options.pageSize none
  let spentSet ← downloadSpentSet replies.spent
  let found := validateCandidates C entries spentSet (options.fromIndex.getD 0) false
  let root ← rootOf C entries replies.head.leafCount
  if root ≠ replies.head.root then .error .rootMismatch
  else .ok ⟨found.notes, found.scannedUpTo, replies.head, found.quarantine, spentSet⟩

def scanAttempts (options : ScanOptions) : Nat → List ScanReplies → Except ScanError ScanOutcome
  | 0, _ => .error .staleSnapshot
  | _ + 1, [] => .error .unanswered
  | n + 1, replies :: rest => do
    let outcome ← scanAndValidateOnce C options replies
    if replies.countNow = outcome.spentSet.length then .ok outcome else scanAttempts options n rest

def scanAndValidate (options : ScanOptions) (replies : List ScanReplies) : Except ScanError ScanOutcome :=
  scanAttempts C options maxFullScanAttempts replies

/-- The configured deployment, and the three canisters an attestation names. -/
structure DeploymentBinding where
  poolCanisterId : String
  merkleCanisterId : String
  nullifierCanisterId : String
  deriving DecidableEq, Repr

structure DeploymentAttestation where
  names : DeploymentBinding
  configHash : Bytes
  deriving DecidableEq, Repr

/-- What the canisters reply to a verified scan; a refused attestation is absent. -/
structure VerifiedReplies where
  attestation : Option DeploymentAttestation
  securityEpoch : Nat
  acceptedHead : Option MirrorHead
  attempts : List ScanReplies
  deriving DecidableEq, Repr

structure VerifiedScanOptions where
  pageSize : Option Nat
  maxLeaves : Option Nat
  nowMs : Nat
  deriving DecidableEq, Repr

def spentSetDigestDomain : String := "stsh.verified-scan.spent-set.v1"

/-- Over the elements in the order of the walk, which ascends. -/
def spentSetDigest (spentSet : List Bytes) : Bytes :=
  Bytes.toBe 32
    (Sha256.sha256 (utf8 spentSetDigestDomain ++ Bytes.toLe 8 spentSet.length ++ spentSet.flatten)).toNat

def verifiedScanFreshnessBudgetMs : Nat := 15 * 60000

def verifiedAttempt (options : VerifiedScanOptions) (configHash : Bytes) (securityEpoch : Nat)
    (accepted : MirrorHead) (replies : ScanReplies) :
    Except ScanError (ScanOutcome × VerifiedScanMetadata) := do
  let entries ← syncMirror replies.head replies.pages options.pageSize (some accepted.leafCount)
  let root ← rootOf C entries accepted.leafCount
  if root ≠ accepted.root then .error .verifiedAnchorMismatch
  else do
    let spentSet ← downloadSpentSet replies.spent
    let found := validateCandidates C entries spentSet 0 true
    .ok (⟨found.notes, found.scannedUpTo, accepted, found.quarantine, spentSet⟩,
      { configHash := configHash
        acceptedRoot := accepted.root
        acceptedLeafCount := accepted.leafCount
        securityEpoch := securityEpoch
        spentCount := spentSet.length
        spentSetDigest := spentSetDigest spentSet
        validatedAtMs := options.nowMs
        freshnessBudgetMs := verifiedScanFreshnessBudgetMs })

def verifiedAttempts (options : VerifiedScanOptions) (configHash : Bytes) (securityEpoch : Nat)
    (accepted : MirrorHead) :
    Nat → List ScanReplies → Except ScanError (ScanOutcome × VerifiedScanMetadata)
  | 0, _ => .error .staleSnapshot
  | _ + 1, [] => .error .unanswered
  | n + 1, replies :: rest => do
    let result ← verifiedAttempt C options configHash securityEpoch accepted replies
    if replies.countNow = result.1.spentSet.length then .ok result
    else verifiedAttempts options configHash securityEpoch accepted n rest

/-- `none` where the pool has accepted no root yet. -/
def scanAndValidateVerified (options : VerifiedScanOptions) (binding : DeploymentBinding)
    (replies : VerifiedReplies) : Except ScanError (Option (ScanOutcome × VerifiedScanMetadata)) :=
  match replies.attestation with
  | none => .error .deploymentAttestationUnavailable
  | some attestation =>
    if attestation.names ≠ binding then .error .wrongDeployment
    else
      match replies.acceptedHead with
      | none => .ok none
      | some accepted =>
        if accepted.leafCount = 0 then .ok none
        else if options.maxLeaves.getD maxVerifiedSweepLeaves < accepted.leafCount then .error .verifiedSweepTooLarge
        else (verifiedAttempts C options attestation.configHash replies.securityEpoch accepted
          maxFullScanAttempts replies.attempts).map some

end

/-! ### What is found -/

section Found
variable {C : NoteCrypto} {entries : List ScanPageEntry} {entry : ScanPageEntry} {spentSet : List Bytes}
  {fields : NoteV2Fields} {fromIndex start bound pageSize : Nat} {markVerified : Bool} {n : ScannedNote}

/-- The note a leaf is to the wallet. -/
def Candidate.note? : Candidate → Option ScannedNote
  | .found n => some n
  | .foreign => none
  | .quarantined _ => none

theorem take_notes (found : Candidates) (index : Nat) (c : Candidate) :
    (found.take index c).notes = found.notes ++ c.note?.toList := by
  cases c with
  | foreign => exact (List.append_nil _).symm
  | quarantined reason => exact (List.append_nil _).symm
  | found n => rfl

/-- The entries from the first one scanned, each with the note that is found there. -/
theorem validateCandidates_notes : (validateCandidates C entries spentSet fromIndex markVerified).notes =
    (entries.filter fun e => !decide (e.index < fromIndex)).filterMap fun e =>
      (validateCandidate C spentSet markVerified e).note? := by
  have hfold : ∀ found : Candidates, (entries.foldl
      (fun found entry =>
        if entry.index < fromIndex then found
        else found.take entry.index (validateCandidate C spentSet markVerified entry)) found).notes =
      found.notes ++ (entries.filter fun e => !decide (e.index < fromIndex)).filterMap fun e =>
        (validateCandidate C spentSet markVerified e).note? := by
    induction entries with
    | nil => exact fun found => (List.append_nil _).symm
    | cons e entries ih =>
      intro found
      rw [List.foldl_cons, ih]
      by_cases h : e.index < fromIndex
      · rw [if_pos h, List.filter_cons_of_neg (by simp [h])]
      · rw [if_neg h, List.filter_cons_of_pos (by simp [h]), take_notes, List.filterMap_cons,
          List.append_assoc]
        cases (validateCandidate C spentSet markVerified e).note? <;> rfl
  rw [validateCandidates, hfold, List.nil_append]

/-- The payload opens to these fields, they are the wallet's own, and the leaf is their note's. -/
structure Opens (C : NoteCrypto) (entry : ScanPageEntry) (fields : NoteV2Fields) : Prop where
  plaintext : ∃ bytes, C.tryDecrypt entry.encryptedPayload = some bytes ∧
    noteFromBytesV2 bytes = .ok (some fields)
  rho : (deriveNoteSecretsV2 C fields.nonce).rho = fields.rho
  rseed : (deriveNoteSecretsV2 C fields.nonce).rseed = fields.rseed
  recipientPk : derivePk C (deriveNoteSecretsV2 C fields.nonce).spendKey = fields.recipientPk
  leaf : merkleLeaf C fields.value (noteCommitment C fields) = entry.leaf

theorem candidate_found_iff : validateCandidate C spentSet markVerified entry = .found n ↔
    ∃ fields, Opens C entry fields ∧ n = foundNote C spentSet markVerified entry.index fields := by
  constructor
  · intro h
    unfold validateCandidate at h
    split at h
    · exact nomatch h
    · rename_i plaintext hplaintext
      split at h
      · exact nomatch h
      · exact nomatch h
      · rename_i fields hfields
        dsimp only at h
        split at h
        · exact nomatch h
        · rename_i hsecrets
          split at h
          · exact nomatch h
          · rename_i hleaf
            simp only [not_or, not_not] at hsecrets hleaf
            obtain ⟨hrho, hrseed, hpk⟩ := hsecrets
            exact ⟨fields, ⟨⟨plaintext, hplaintext, hfields⟩, hrho, hrseed, hpk, hleaf⟩,
              (Candidate.found.inj h).symm⟩
  · rintro ⟨fields, ⟨⟨plaintext, hplaintext, hfields⟩, hrho, hrseed, hpk, hleaf⟩, rfl⟩
    unfold validateCandidate
    rw [hplaintext]
    dsimp only
    rw [hfields]
    dsimp only
    rw [if_neg (by simp [hrho, hrseed, hpk]), if_neg (not_not.2 hleaf)]

/-- A note is found wherever the payload opens and the leaf is right. -/
theorem mem_validateCandidates : n ∈ (validateCandidates C entries spentSet fromIndex markVerified).notes ↔
    ∃ entry ∈ entries, fromIndex ≤ entry.index ∧
      ∃ fields, Opens C entry fields ∧ n = foundNote C spentSet markVerified entry.index fields := by
  rw [validateCandidates_notes, List.mem_filterMap]
  constructor
  · rintro ⟨entry, hentry, hnote⟩
    obtain ⟨hmem, hindex⟩ := List.mem_filter.1 hentry
    refine ⟨entry, hmem, by simpa using hindex, ?_⟩
    cases hcandidate : validateCandidate C spentSet markVerified entry with
    | foreign => rw [hcandidate] at hnote; exact nomatch hnote
    | quarantined reason => rw [hcandidate] at hnote; exact nomatch hnote
    | found m =>
      rw [hcandidate] at hnote
      obtain rfl := Option.some.inj hnote
      exact candidate_found_iff.1 hcandidate
  · rintro ⟨entry, hmem, hindex, hfound⟩
    refine ⟨entry, List.mem_filter.2 ⟨hmem, by simpa using hindex⟩, ?_⟩
    rw [candidate_found_iff.2 hfound]
    rfl

/-- A nonce is of 16 bytes. -/
theorem nonce_length (h : Opens C entry fields) : fields.nonce.length = noteNonceBytes := by
  obtain ⟨⟨bytes, -, hbytes⟩, -⟩ := h
  unfold noteFromBytesV2 at hbytes
  split at hbytes
  · exact nomatch hbytes
  · split at hbytes
    · exact nomatch hbytes
    · rename_i hshape
      have hlength : bytes.length = 121 := by
        by_contra hne
        exact hshape (.inl hne)
      obtain rfl := Option.some.inj (Except.ok.inj hbytes)
      show (bytes.extract 1 17).length = 16
      rw [List.extract_eq_take_drop, List.length_take, List.length_drop, hlength]
      decide

/-! ### Where it is found -/

theorem validateScanEntries_ok {page : List ScanPageEntry}
    (h : validateScanEntries bound start page = .ok ()) :
    page.map ScanPageEntry.index = List.range' start page.length := by
  induction page generalizing start with
  | nil => rfl
  | cons entry page ih =>
    unfold validateScanEntries at h
    split at h
    · exact nomatch h
    · rename_i hindex
      split at h
      · exact nomatch h
      · split at h
        · exact nomatch h
        · rw [List.map_cons, List.length_cons, List.range'_succ, ih h, not_not.1 hindex]

/-- The entries of a sweep lie next to each other. -/
theorem sweepPages_ok {pages : List (List ScanPageEntry)}
    (h : sweepPages bound pageSize pages start = .ok entries) :
    entries.map ScanPageEntry.index = List.range' start entries.length := by
  induction pages generalizing start entries with
  | nil =>
    unfold sweepPages at h
    split at h
    · exact nomatch h
    · obtain rfl := Except.ok.inj h
      rfl
  | cons page pages ih =>
    unfold sweepPages at h
    split at h
    · obtain ⟨_, hpage, h⟩ := bind_ok h
      have hdense : page.map ScanPageEntry.index = List.range' start page.length := by
        unfold validateScanPage at hpage
        split at hpage
        · exact nomatch hpage
        · exact validateScanEntries_ok hpage
      split at h
      · obtain rfl := Except.ok.inj h
        exact hdense
      · obtain ⟨rest, hrest, h⟩ := bind_ok h
        obtain rfl := Except.ok.inj h
        rw [List.map_append, hdense, ih hrest, List.length_append, List.range'_append_1]
    · obtain rfl := Except.ok.inj h
      rfl

theorem syncMirror_ok {head : MirrorHead} {pages : List (List ScanPageEntry)} {size limit : Option Nat}
    (h : syncMirror head pages size limit = .ok entries) :
    entries.map ScanPageEntry.index = List.range' 0 entries.length := by
  unfold syncMirror at h
  dsimp only at h
  split at h
  · exact nomatch h
  · exact sweepPages_ok h

/-- At most one note is found at a leaf. -/
theorem found_one (h : entries.map ScanPageEntry.index = List.range' 0 entries.length) :
    OneNoteALeaf (validateCandidates C entries spentSet fromIndex markVerified).notes := by
  have hindices : (entries.map ScanPageEntry.index).Nodup := by
    rw [h]
    exact List.nodup_range'
  have hsub : ∀ l : List ScanPageEntry, ((l.filterMap fun e =>
      (validateCandidate C spentSet markVerified e).note?).map ScannedNote.leafIndex).Sublist
        (l.map ScanPageEntry.index) := by
    intro l
    induction l with
    | nil => exact .slnil
    | cons e l ih =>
      rw [List.filterMap_cons]
      cases hcandidate : validateCandidate C spentSet markVerified e with
      | foreign => exact ih.cons _
      | quarantined reason => exact ih.cons _
      | found n =>
        obtain ⟨fields, -, rfl⟩ := candidate_found_iff.1 hcandidate
        exact ih.cons_cons _
  rw [OneNoteALeaf, validateCandidates_notes]
  exact ((hsub _).trans (List.filter_sublist.map _)).nodup hindices

theorem length_wordBytes (x : ShieldedPool.Bytes32) : (wordBytes x).length = 32 := Bytes.length_toLe 32 _

theorem rootOf_length {leafCount : Nat} {root : Bytes} (h : rootOf C entries leafCount = .ok root) :
    root.length = 32 := by
  unfold rootOf at h
  split at h
  · exact nomatch h
  · obtain rfl := Except.ok.inj h
    exact length_wordBytes _

/-! ### Outcomes -/

/-- What one attempt swept and downloaded. -/
structure Swept (pageSize limit : Option Nat) (replies : ScanReplies) (entries : List ScanPageEntry)
    (spentSet : List Bytes) : Prop where
  mirror : syncMirror replies.head replies.pages pageSize limit = .ok entries
  spent : downloadSpentSet replies.spent = .ok spentSet
  /-- No nullifier came in the meantime. -/
  current : replies.countNow = spentSet.length

/-- An outcome is of one attempt: its notes are those of the entries it swept. -/
structure OutcomeOf (C : NoteCrypto) (entries : List ScanPageEntry) (fromIndex : Nat)
    (markVerified : Bool) (outcome : ScanOutcome) : Prop where
  dense : entries.map ScanPageEntry.index = List.range' 0 entries.length
  notes : outcome.notes =
    (validateCandidates C entries outcome.spentSet fromIndex markVerified).notes
  root : outcome.mirrorHead.root.length = 32

theorem scanAndValidateOnce_ok {options : ScanOptions} {replies : ScanReplies} {outcome : ScanOutcome}
    (h : scanAndValidateOnce C options replies = .ok outcome) :
    ∃ entries, syncMirror replies.head replies.pages options.pageSize none = .ok entries ∧
      downloadSpentSet replies.spent = .ok outcome.spentSet ∧
        OutcomeOf C entries (options.fromIndex.getD 0) false outcome := by
  obtain ⟨entries, hentries, h⟩ := bind_ok h
  obtain ⟨spentSet, hspent, h⟩ := bind_ok h
  obtain ⟨root, hroot, h⟩ := bind_ok h
  split at h
  · exact nomatch h
  · rename_i hhead
    obtain rfl := Except.ok.inj h
    refine ⟨entries, hentries, hspent, syncMirror_ok hentries, rfl, ?_⟩
    show replies.head.root.length = 32
    rw [← not_not.1 hhead]
    exact rootOf_length hroot

/-- A scan ends with the attempt after which the registry had not grown. -/
theorem scanAttempts_ok {options : ScanOptions} {attempts : Nat} {replies : List ScanReplies}
    {outcome : ScanOutcome} (h : scanAttempts C options attempts replies = .ok outcome) :
    ∃ r ∈ replies, ∃ entries, Swept options.pageSize none r entries outcome.spentSet ∧
      OutcomeOf C entries (options.fromIndex.getD 0) false outcome := by
  induction attempts generalizing replies with
  | zero => exact nomatch h
  | succ attempts ih =>
    cases replies with
    | nil => exact nomatch h
    | cons r rest =>
      obtain ⟨first, hfirst, h⟩ := bind_ok h
      split at h
      · rename_i hcurrent
        obtain rfl := Except.ok.inj h
        obtain ⟨entries, hentries, hspent, hof⟩ := scanAndValidateOnce_ok hfirst
        exact ⟨r, List.mem_cons_self, entries, ⟨hentries, hspent, hcurrent⟩, hof⟩
      · obtain ⟨r', hr', hrest⟩ := ih h
        exact ⟨r', List.mem_cons_of_mem _ hr', hrest⟩

theorem verifiedAttempt_ok {options : VerifiedScanOptions} {configHash : Bytes} {epoch : Nat}
    {accepted : MirrorHead} {replies : ScanReplies} {outcome : ScanOutcome} {m : VerifiedScanMetadata}
    (h : verifiedAttempt C options configHash epoch accepted replies = .ok (outcome, m)) :
    m.configHash = configHash ∧ m.acceptedRoot.length = 32 ∧ m.spentSetDigest.length = 32 ∧
      ∃ entries, syncMirror replies.head replies.pages options.pageSize (some accepted.leafCount) =
          .ok entries ∧
        downloadSpentSet replies.spent = .ok outcome.spentSet ∧ OutcomeOf C entries 0 true outcome := by
  obtain ⟨entries, hentries, h⟩ := bind_ok h
  obtain ⟨root, hroot, h⟩ := bind_ok h
  split at h
  · exact nomatch h
  · rename_i haccepted
    obtain ⟨spentSet, hspent, h⟩ := bind_ok h
    obtain ⟨rfl, rfl⟩ := Prod.mk.inj (Except.ok.inj h)
    have hlength : accepted.root.length = 32 := by
      rw [← not_not.1 haccepted]
      exact rootOf_length hroot
    exact ⟨rfl, hlength, Bytes.length_toBe .., entries, hentries, hspent, syncMirror_ok hentries, rfl,
      hlength⟩

theorem verifiedAttempts_ok {options : VerifiedScanOptions} {configHash : Bytes} {epoch : Nat}
    {accepted : MirrorHead} {attempts : Nat} {replies : List ScanReplies} {outcome : ScanOutcome}
    {m : VerifiedScanMetadata}
    (h : verifiedAttempts C options configHash epoch accepted attempts replies = .ok (outcome, m)) :
    m.configHash = configHash ∧ m.acceptedRoot.length = 32 ∧ m.spentSetDigest.length = 32 ∧
      ∃ r ∈ replies, ∃ entries,
        Swept options.pageSize (some accepted.leafCount) r entries outcome.spentSet ∧
          OutcomeOf C entries 0 true outcome := by
  induction attempts generalizing replies with
  | zero => exact nomatch h
  | succ attempts ih =>
    cases replies with
    | nil => exact nomatch h
    | cons r rest =>
      obtain ⟨first, hfirst, h⟩ := bind_ok h
      split at h
      · rename_i hcurrent
        obtain rfl := Except.ok.inj h
        obtain ⟨hconfig, hroot, hdigest, entries, hentries, hspent, hof⟩ := verifiedAttempt_ok hfirst
        exact ⟨hconfig, hroot, hdigest, r, List.mem_cons_self, entries,
          ⟨hentries, hspent, hcurrent⟩, hof⟩
      · obtain ⟨hconfig, hroot, hdigest, r', hr', hrest⟩ := ih h
        exact ⟨hconfig, hroot, hdigest, r', List.mem_cons_of_mem _ hr', hrest⟩

/-- A verified sweep's evidence is of the deployment that was attested. -/
theorem scanAndValidateVerified_ok {options : VerifiedScanOptions} {binding : DeploymentBinding}
    {replies : VerifiedReplies} {outcome : ScanOutcome} {m : VerifiedScanMetadata}
    (h : scanAndValidateVerified C options binding replies = .ok (some (outcome, m))) :
    (∃ attestation, replies.attestation = some attestation ∧ m.configHash = attestation.configHash) ∧
      m.acceptedRoot.length = 32 ∧ m.spentSetDigest.length = 32 ∧
        ∃ accepted, replies.acceptedHead = some accepted ∧ ∃ r ∈ replies.attempts, ∃ entries,
          Swept options.pageSize (some accepted.leafCount) r entries outcome.spentSet ∧
            OutcomeOf C entries 0 true outcome := by
  unfold scanAndValidateVerified at h
  cases hattestation : replies.attestation with
  | none =>
    rw [hattestation] at h
    exact nomatch h
  | some attestation =>
    rw [hattestation] at h
    dsimp only at h
    split at h
    · exact nomatch h
    · cases haccepted : replies.acceptedHead with
      | none =>
        rw [haccepted] at h
        exact nomatch h
      | some accepted =>
        rw [haccepted] at h
        dsimp only at h
        split at h
        · exact nomatch h
        · split at h
          · exact nomatch h
          · obtain ⟨result, hresult, hsome⟩ := map_ok h
            obtain rfl := Option.some.inj hsome
            obtain ⟨hconfig, hroot, hdigest, hrest⟩ := verifiedAttempts_ok hresult
            exact ⟨⟨attestation, rfl, hconfig⟩, hroot, hdigest, accepted, rfl, hrest⟩

end Found

end StshProtocol.Wallet.Scan
