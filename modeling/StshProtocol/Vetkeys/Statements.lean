import StshProtocol.Vetkeys.Devices

/-! Statements: what a device signs, in full.

A transcript carries hashes where the operation's fields are long. Its parts can be told apart
(`Transcript.encode_inj`), so where nobody signs for the holder of a key and no second input
has the hash of a field that was signed, a signature over the transcript of a statement is one
of the statement itself (`signed_of_verified`). -/
namespace StshProtocol.Vetkeys
open Foundation ShieldedPool Vesting

inductive Action where
  | registerDevice
  | revokeDevice
  | replaceEnvelope
  | setDeviceApprovalPolicy
  | authorizeReBootstrap
  deriving DecidableEq

/-- How a transcript names the action. -/
def Action.label : Action → Bytes
  | .registerDevice => actionRegisterDevice
  | .revokeDevice => actionRevokeDevice
  | .replaceEnvelope => actionReplaceEnvelope
  | .setDeviceApprovalPolicy => actionSetDeviceApprovalPolicy
  | .authorizeReBootstrap => actionAuthorizeReBootstrap

theorem Action.label_inj {a b : Action} (h : a.label = b.label) : a = b := by
  revert h
  cases a <;> cases b <;> decide

/-- The operations a device signs; `η` is what stands for a key or an envelope. -/
inductive Deed (η : Type) where
  | register (issuerDeviceId newDeviceId : Bytes) (encPubkey signPubkey wrappedSecret : η)
  | revoke (issuerDeviceId targetDeviceId : Bytes)
  | replace (deviceId : Bytes) (oldEnvelope newEnvelope : η)
  | setDeviceApprovalPolicy (issuerDeviceId : Bytes) (require : Bool)
  | authorizeReBootstrap (issuerDeviceId : Bytes)
  deriving DecidableEq

namespace Deed
variable {η θ : Type}

def map (f : η → θ) : Deed η → Deed θ
  | register i n e s w => register i n (f e) (f s) (f w)
  | revoke i t => revoke i t
  | replace d o n => replace d (f o) (f n)
  | setDeviceApprovalPolicy i r => setDeviceApprovalPolicy i r
  | authorizeReBootstrap i => authorizeReBootstrap i

/-- The fields that are hashed. -/
def hashed : Deed η → List η
  | register _ _ e s w => [e, s, w]
  | replace _ o n => [o, n]
  | revoke _ _ | setDeviceApprovalPolicy _ _ | authorizeReBootstrap _ => []

/-- The ids it names. -/
def ids : Deed η → List Bytes
  | register i n _ _ _ => [i, n]
  | revoke i t => [i, t]
  | replace d _ _ => [d]
  | setDeviceApprovalPolicy i _ | authorizeReBootstrap i => [i]

def action : Deed η → Action
  | register .. => .registerDevice
  | revoke .. => .revokeDevice
  | replace .. => .replaceEnvelope
  | setDeviceApprovalPolicy .. => .setDeviceApprovalPolicy
  | authorizeReBootstrap _ => .authorizeReBootstrap

/-- The part of the transcript that is the operation's own. -/
def body : Deed Hash32 → Bytes
  | register i n e s w => pushVar i ++ (pushVar n ++ (e.val ++ (s.val ++ w.val)))
  | revoke i t => pushVar i ++ pushVar t
  | replace d o n => pushVar d ++ (o.val ++ n.val)
  | setDeviceApprovalPolicy i r => pushVar i ++ [if r then 1 else 0]
  | authorizeReBootstrap i => pushVar i

theorem ids_map (f : η → θ) (d : Deed η) : (d.map f).ids = d.ids := by cases d <;> rfl

/-- A map that confuses nothing with what it is given loses nothing. -/
theorem map_inj {f : η → θ} {d d' : Deed η} (hf : ∀ x ∈ d.hashed, ∀ y, f y = f x → y = x)
    (h : d.map f = d'.map f) : d = d' := by
  cases d with
  | register i n e s w =>
    cases d' with
    | register i' n' e' s' w' =>
      obtain ⟨rfl, rfl, he, hs, hw⟩ := register.inj h
      rw [hf e (by simp [hashed]) e' he.symm, hf s (by simp [hashed]) s' hs.symm,
        hf w (by simp [hashed]) w' hw.symm]
    | _ => cases h
  | replace d o n =>
    cases d' with
    | replace d' o' n' =>
      obtain ⟨rfl, ho, hn⟩ := replace.inj h
      rw [hf o (by simp [hashed]) o' ho.symm, hf n (by simp [hashed]) n' hn.symm]
    | _ => cases h
  | revoke i t =>
    cases d' with
    | revoke i' t' =>
      cases h
      rfl
    | _ => cases h
  | setDeviceApprovalPolicy i r =>
    cases d' with
    | setDeviceApprovalPolicy i' r' =>
      cases h
      rfl
    | _ => cases h
  | authorizeReBootstrap i =>
    cases d' with
    | authorizeReBootstrap i' =>
      cases h
      rfl
    | _ => cases h

end Deed

structure Statement where
  canisterId : PrincipalBytes
  principal : PrincipalBytes
  deed : Deed Bytes
  nonce : Nonce16
  expiryNs : Nat

def Statement.transcript (sha256 : Bytes → Hash32) (m : Statement) : Bytes :=
  match m.deed with
  | .register i n e s w => ApprovalV1.encode
      ⟨m.canisterId, m.principal, i, n, sha256 e, sha256 s, sha256 w, m.nonce, m.expiryNs⟩
  | .revoke i t => RevokeV1.encode ⟨m.canisterId, m.principal, i, t, m.nonce, m.expiryNs⟩
  | .replace d o n => ReplaceV1.encode
      ⟨m.canisterId, m.principal, d, sha256 o, sha256 n, m.nonce, m.expiryNs⟩
  | .setDeviceApprovalPolicy i r =>
    SetDeviceApprovalPolicyV1.encode ⟨m.canisterId, m.principal, i, r, m.nonce, m.expiryNs⟩
  | .authorizeReBootstrap i =>
    ReBootstrapV1.encode ⟨m.canisterId, m.principal, i, m.nonce, m.expiryNs⟩

/-! ### The parts of a transcript -/

/-- A field whose length can be told. -/
def FieldFits (field : Bytes) : Prop := field.length < 2 ^ 32

section Parts
variable {x y a b : Bytes}

theorem length_pushVar (x : Bytes) : (pushVar x).length = 4 + x.length := by
  simp [pushVar]

/-- A field tells where it ends. -/
theorem pushVar_append_inj (hx : FieldFits x) (hy : FieldFits y)
    (h : pushVar x ++ a = pushVar y ++ b) : x = y ∧ a = b := by
  simp only [pushVar, List.append_assoc] at h
  obtain ⟨hlen, hrest⟩ := List.append_inj h (by simp)
  have hn : x.length = y.length := by
    have hof := congrArg Bytes.ofLe hlen
    rw [Bytes.ofLe_toLe, Bytes.ofLe_toLe] at hof
    unfold FieldFits at hx hy
    omega
  exact List.append_inj hrest hn

theorem principal_fits (p : PrincipalBytes) : FieldFits p.asSlice :=
  Nat.lt_of_le_of_lt p.short (by decide)

theorem label_fits (a : Action) : FieldFits a.label := by
  unfold FieldFits
  cases a <;> decide

theorem principal_append_inj {p q : PrincipalBytes}
    (h : pushVar p.asSlice ++ a = pushVar q.asSlice ++ b) : p = q ∧ a = b := by
  obtain ⟨hslice, hrest⟩ := pushVar_append_inj (principal_fits p) (principal_fits q) h
  cases p
  cases q
  cases hslice
  exact ⟨rfl, hrest⟩

theorem transcriptHead_append_inj {c c' p p' : PrincipalBytes} {act act' : Action}
    (h : transcriptHead c p act.label ++ a = transcriptHead c' p' act'.label ++ b) :
    c = c' ∧ p = p' ∧ act = act' ∧ a = b := by
  simp only [transcriptHead, List.append_assoc, List.append_cancel_left_eq] at h
  obtain ⟨hc, haction⟩ := principal_append_inj h
  obtain ⟨hact, hprincipal⟩ := pushVar_append_inj (label_fits act) (label_fits act') haction
  obtain ⟨hp, hrest⟩ := principal_append_inj hprincipal
  exact ⟨hc, hp, Action.label_inj hact, hrest⟩

end Parts

/-- Hashes come apart. -/
theorem hash_append_inj {e e' : Hash32} {x y : Bytes} (h : e.val ++ x = e'.val ++ y) :
    e = e' ∧ x = y := by
  obtain ⟨he, hxy⟩ := List.append_inj h (e.property.trans e'.property.symm)
  exact ⟨Subtype.ext he, hxy⟩

theorem flag_inj {r r' : Bool} (h : [if r then (1 : UInt8) else 0] = [if r' then 1 else 0]) :
    r = r' := by
  revert h
  cases r <;> cases r' <;> decide

theorem transcriptTail_inj {n n' : Nonce16} {e e' : Nat}
    (h : transcriptTail n e = transcriptTail n' e') : n = n' ∧ e % 2 ^ 64 = e' % 2 ^ 64 := by
  obtain ⟨hn, he⟩ := List.append_inj h (n.property.trans n'.property.symm)
  refine ⟨Subtype.ext hn, ?_⟩
  have hof := congrArg Bytes.ofLe he
  rwa [Bytes.ofLe_toLe, Bytes.ofLe_toLe] at hof

/-- What the operations of one action write comes apart. -/
theorem Deed.body_append_inj {d d' : Deed Hash32} {x y : Bytes} (hact : d.action = d'.action)
    (hd : ∀ id ∈ d.ids, FieldFits id) (hd' : ∀ id ∈ d'.ids, FieldFits id)
    (h : d.body ++ x = d'.body ++ y) : d = d' ∧ x = y := by
  cases d with
  | register i n e s w =>
    cases d' with
    | register i' n' e' s' w' =>
      simp only [Deed.body, List.append_assoc] at h
      simp only [Deed.ids, List.forall_mem_cons] at hd hd'
      obtain ⟨rfl, hrest⟩ := pushVar_append_inj hd.1 hd'.1 h
      obtain ⟨rfl, hhashes⟩ := pushVar_append_inj hd.2.1 hd'.2.1 hrest
      obtain ⟨rfl, hkeys⟩ := hash_append_inj hhashes
      obtain ⟨rfl, henvelope⟩ := hash_append_inj hkeys
      obtain ⟨rfl, hend⟩ := hash_append_inj henvelope
      exact ⟨rfl, hend⟩
    | _ => cases hact
  | revoke i t =>
    cases d' with
    | revoke i' t' =>
      simp only [Deed.body, List.append_assoc] at h
      simp only [Deed.ids, List.forall_mem_cons] at hd hd'
      obtain ⟨rfl, hrest⟩ := pushVar_append_inj hd.1 hd'.1 h
      obtain ⟨rfl, hend⟩ := pushVar_append_inj hd.2.1 hd'.2.1 hrest
      exact ⟨rfl, hend⟩
    | _ => cases hact
  | replace d o n =>
    cases d' with
    | replace d' o' n' =>
      simp only [Deed.body, List.append_assoc] at h
      simp only [Deed.ids, List.forall_mem_cons] at hd hd'
      obtain ⟨rfl, hhashes⟩ := pushVar_append_inj hd.1 hd'.1 h
      obtain ⟨rfl, hnew⟩ := hash_append_inj hhashes
      obtain ⟨rfl, hend⟩ := hash_append_inj hnew
      exact ⟨rfl, hend⟩
    | _ => cases hact
  | setDeviceApprovalPolicy i r =>
    cases d' with
    | setDeviceApprovalPolicy i' r' =>
      simp only [Deed.body, List.append_assoc] at h
      simp only [Deed.ids, List.forall_mem_cons] at hd hd'
      obtain ⟨rfl, hrest⟩ := pushVar_append_inj hd.1 hd'.1 h
      obtain ⟨hflag, hend⟩ := List.append_inj hrest rfl
      rw [flag_inj hflag]
      exact ⟨rfl, hend⟩
    | _ => cases hact
  | authorizeReBootstrap i =>
    cases d' with
    | authorizeReBootstrap i' =>
      simp only [Deed.ids, List.forall_mem_cons] at hd hd'
      obtain ⟨rfl, hend⟩ := pushVar_append_inj hd.1 hd'.1 h
      exact ⟨rfl, hend⟩
    | _ => cases hact

/-! ### Transcripts -/

/-- What a transcript encodes, whichever of the five it is. -/
structure Transcript where
  canisterId : PrincipalBytes
  principal : PrincipalBytes
  deed : Deed Hash32
  nonce : Nonce16
  expiryNs : Nat

def Transcript.encode (t : Transcript) : Bytes :=
  match t.deed with
  | .register i n e s w =>
    ApprovalV1.encode ⟨t.canisterId, t.principal, i, n, e, s, w, t.nonce, t.expiryNs⟩
  | .revoke i d => RevokeV1.encode ⟨t.canisterId, t.principal, i, d, t.nonce, t.expiryNs⟩
  | .replace d o n => ReplaceV1.encode ⟨t.canisterId, t.principal, d, o, n, t.nonce, t.expiryNs⟩
  | .setDeviceApprovalPolicy i r =>
    SetDeviceApprovalPolicyV1.encode ⟨t.canisterId, t.principal, i, r, t.nonce, t.expiryNs⟩
  | .authorizeReBootstrap i =>
    ReBootstrapV1.encode ⟨t.canisterId, t.principal, i, t.nonce, t.expiryNs⟩

/-- The values the fields' types have: ids whose length is told in 32 bits, and a 64-bit time. -/
def Transcript.Fits (t : Transcript) : Prop :=
  (∀ id ∈ t.deed.ids, FieldFits id) ∧ t.expiryNs < 2 ^ 64

namespace Transcript
variable {t t' : Transcript}

theorem encode_eq (t : Transcript) : t.encode =
    transcriptHead t.canisterId t.principal t.deed.action.label ++
      (t.deed.body ++ transcriptTail t.nonce t.expiryNs) := by
  obtain ⟨c, p, d, n, e⟩ := t
  cases d <;> simp only [encode, Deed.body, Deed.action, Action.label, ApprovalV1.encode,
    RevokeV1.encode, ReplaceV1.encode, SetDeviceApprovalPolicyV1.encode, ReBootstrapV1.encode,
    List.append_assoc]

/-- One encoding is of one transcript, up to what is beyond 64 bits of the expiry. -/
theorem encode_inj_mod (ht : ∀ id ∈ t.deed.ids, FieldFits id) (ht' : ∀ id ∈ t'.deed.ids, FieldFits id)
    (h : t.encode = t'.encode) :
    t.canisterId = t'.canisterId ∧ t.principal = t'.principal ∧ t.deed = t'.deed ∧
      t.nonce = t'.nonce ∧ t.expiryNs % 2 ^ 64 = t'.expiryNs % 2 ^ 64 := by
  rw [encode_eq, encode_eq] at h
  obtain ⟨hc, hp, hact, hrest⟩ := transcriptHead_append_inj h
  obtain ⟨hd, htail⟩ := Deed.body_append_inj hact ht ht' hrest
  obtain ⟨hn, he⟩ := transcriptTail_inj htail
  exact ⟨hc, hp, hd, hn, he⟩

/-- The five encodings are jointly injective. -/
theorem encode_inj (ht : t.Fits) (ht' : t'.Fits) (h : t.encode = t'.encode) : t = t' := by
  obtain ⟨hc, hp, hd, hn, he⟩ := encode_inj_mod ht.1 ht'.1 h
  rw [Nat.mod_eq_of_lt ht.2, Nat.mod_eq_of_lt ht'.2] at he
  cases t
  cases t'
  cases hc
  cases hp
  cases hd
  cases hn
  cases he
  rfl

end Transcript

/-- The statement with its long fields hashed. -/
def Statement.digest (sha256 : Bytes → Hash32) (m : Statement) : Transcript :=
  ⟨m.canisterId, m.principal, m.deed.map sha256, m.nonce, m.expiryNs⟩

theorem Statement.transcript_eq (sha256 : Bytes → Hash32) (m : Statement) :
    m.transcript sha256 = (m.digest sha256).encode := by
  obtain ⟨c, p, d, n, e⟩ := m
  cases d <;> rfl

/-- An id is no longer than what it stands in. -/
theorem Deed.length_id {d : Deed Hash32} {id : Bytes} (h : id ∈ d.ids) :
    id.length ≤ d.body.length := by
  cases d with
  | register i n e s w =>
    simp only [ids, List.mem_cons, List.not_mem_nil, or_false] at h
    simp only [body, List.length_append, length_pushVar]
    rcases h with rfl | rfl <;> omega
  | revoke i t =>
    simp only [ids, List.mem_cons, List.not_mem_nil, or_false] at h
    simp only [body, List.length_append, length_pushVar]
    rcases h with rfl | rfl <;> omega
  | replace d o n =>
    obtain rfl := List.mem_singleton.1 h
    simp only [body, List.length_append, length_pushVar]
    omega
  | setDeviceApprovalPolicy i r =>
    obtain rfl := List.mem_singleton.1 h
    simp only [body, List.length_append, length_pushVar]
    omega
  | authorizeReBootstrap i =>
    obtain rfl := List.mem_singleton.1 h
    simp only [body, length_pushVar]
    omega

theorem Deed.length_body {d : Deed Hash32} (h : ∀ id ∈ d.ids, id.length ≤ maxDeviceIdBytes) :
    d.body.length ≤ 300 := by
  have hid : ∀ id : Bytes, id.length ≤ maxDeviceIdBytes → (pushVar id).length ≤ 68 := fun id hle => by
    rw [length_pushVar]
    exact Nat.add_le_add_left hle 4
  cases d with
  | register i n e s w =>
    have hi := hid i (h i (by simp [ids]))
    have hn := hid n (h n (by simp [ids]))
    simp only [body, List.length_append, e.property, s.property, w.property]
    omega
  | revoke i t =>
    have hi := hid i (h i (by simp [ids]))
    have ht := hid t (h t (by simp [ids]))
    simp only [body, List.length_append]
    omega
  | replace d o n =>
    have hd := hid d (h d (by simp [ids]))
    simp only [body, List.length_append, o.property, n.property]
    omega
  | setDeviceApprovalPolicy i r =>
    have hi := hid i (h i (by simp [ids]))
    simp only [body, List.length_append, List.length_cons, List.length_nil]
    omega
  | authorizeReBootstrap i => exact Nat.le_trans (hid i (h i (by simp [ids]))) (by decide)

theorem length_transcriptHead (c p : PrincipalBytes) (a : Action) :
    (transcriptHead c p a.label).length ≤ 300 := by
  have hc := c.short
  have hp := p.short
  have hprotocol : transcriptProtocol.length = 28 := by decide
  have haction : a.label.length ≤ 26 := by cases a <;> decide
  simp only [transcriptHead, List.length_append, length_pushVar, Bytes.length_toLe]
  omega

/-- What has the transcript of an operation the canister takes up has ids of a length that can be
told. -/
theorem Transcript.fits_of_encode {t t' : Transcript}
    (ht' : ∀ id ∈ t'.deed.ids, id.length ≤ maxDeviceIdBytes) (h : t.encode = t'.encode) :
    ∀ id ∈ t.deed.ids, FieldFits id := by
  intro id hid
  have hhead := length_transcriptHead t'.canisterId t'.principal t'.deed.action
  have hbody := Deed.length_body ht'
  have hlen := congrArg List.length h
  simp only [encode_eq, List.length_append, transcriptTail, Bytes.length_toLe, t.nonce.property,
    t'.nonce.property] at hlen
  have hle := Deed.length_id hid
  unfold FieldFits
  omega

/-! ### Signatures -/

/-- Whatever a key verifies, its holder signed. -/
def Unforgeable (D : Deployment) (Signs : Bytes → Statement → Prop) : Prop :=
  ∀ spki transcript signature, D.p256.verifies spki transcript signature = true →
    ∃ m, Signs spki m ∧ m.transcript D.sha256 = transcript

/-- Nothing else has the hash of a field that was signed. -/
def CollisionFree (D : Deployment) (Signs : Bytes → Statement → Prop) : Prop :=
  ∀ spki m, Signs spki m → ∀ field ∈ m.deed.hashed, ∀ other,
    D.sha256 other = D.sha256 field → other = field

/-- A signature over the transcript of a statement is one of the statement, with the expiry it
was signed with. -/
theorem signed_of_verified {D : Deployment} {Signs : Bytes → Statement → Prop}
    (hunforgeable : Unforgeable D Signs) (hfree : CollisionFree D Signs) {spki signature : Bytes}
    {m : Statement} (hids : ∀ id ∈ m.deed.ids, id.length ≤ maxDeviceIdBytes)
    (h : D.p256.verifies spki (m.transcript D.sha256) signature = true) :
    ∃ expiryNs, Signs spki {m with expiryNs := expiryNs} := by
  obtain ⟨m', hsigned, htranscript⟩ := hunforgeable _ _ _ h
  rw [Statement.transcript_eq, Statement.transcript_eq] at htranscript
  have hids' : ∀ id ∈ (m.digest D.sha256).deed.ids, id.length ≤ maxDeviceIdBytes := by
    rwa [Statement.digest, Deed.ids_map]
  obtain ⟨hc, hp, hd, hn, -⟩ := Transcript.encode_inj_mod
    (Transcript.fits_of_encode hids' htranscript)
    (fun id hid => Nat.lt_of_le_of_lt (hids' id hid) (by decide)) htranscript
  have hdeed := Deed.map_inj (hfree spki m' hsigned) hd
  refine ⟨m'.expiryNs, ?_⟩
  obtain ⟨c, p, d, n, e⟩ := m'
  cases hc
  cases hp
  cases hdeed
  cases hn
  exact hsigned

end StshProtocol.Vetkeys
