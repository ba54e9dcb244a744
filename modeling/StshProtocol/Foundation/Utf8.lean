import Mathlib.Algebra.Order.Ring.Int
import Mathlib.Tactic.Common
import Mathlib.Algebra.Order.Group.Nat

/-! Bytes as text, as a web page decodes them: UTF-8, a replacement character for every fault,
a leading byte order mark left out. Plain text as long as its bytes is its bytes
(`decode_plain`). -/
namespace StshProtocol.Foundation.Utf8

def replacement : Nat := 0xFFFD

def byteOrderMark : Nat := 0xFEFF

/-- A character begun: how many bytes it needs after the next one, what the bytes so far come
to, and the bounds of the next byte. -/
structure Pending where
  missing : Nat
  point : Nat
  lower : Nat
  upper : Nat

/-- The characters a byte of several may begin. -/
def lead (b : Nat) : Option Pending :=
  if 0xC2 ≤ b ∧ b ≤ 0xDF then some ⟨0, b - 0xC0, 0x80, 0xBF⟩
  else if 0xE0 ≤ b ∧ b ≤ 0xEF then
    some ⟨1, b - 0xE0, if b = 0xE0 then 0xA0 else 0x80, if b = 0xED then 0x9F else 0xBF⟩
  else if 0xF0 ≤ b ∧ b ≤ 0xF4 then
    some ⟨2, b - 0xF0, if b = 0xF0 then 0x90 else 0x80, if b = 0xF4 then 0x8F else 0xBF⟩
  else none

/-- A byte between two characters: what it writes, and the character it begins. -/
def first (b : Nat) : List Nat × Option Pending :=
  if b < 0x80 then ([b], none)
  else
    match lead b with
    | some p => ([], some p)
    | none => ([replacement], none)

/-- A byte within a character; one that does not belong there is read again. -/
def next (p : Pending) (b : Nat) : List Nat × Option Pending :=
  if b < p.lower ∨ p.upper < b then (replacement :: (first b).1, (first b).2)
  else
    let point := p.point * 64 + (b - 0x80)
    match p.missing with
    | 0 => ([point], none)
    | n + 1 => ([], some ⟨n, point, 0x80, 0xBF⟩)

def step : Option Pending → Nat → List Nat × Option Pending
  | none, b => first b
  | some p, b => next p b

def decodeFrom : Option Pending → List UInt8 → List Nat
  | none, [] => []
  | some _, [] => [replacement]
  | s, b :: bs => (step s b.toNat).1 ++ decodeFrom (step s b.toNat).2 bs

/-- The code points of the text. -/
def decode (bs : List UInt8) : List Nat :=
  match decodeFrom none bs with
  | [] => []
  | p :: rest => if p = byteOrderMark then rest else p :: rest

/-! ### Plain text -/

/-- No end of the character lies in the seven-bit range. -/
def Pending.Wide (p : Pending) : Prop :=
  0x80 ≤ p.lower ∧ 128 ≤ p.point * 64 ^ (p.missing + 1) + (p.lower - 0x80) * 64 ^ p.missing

theorem lead_wide {b : Nat} {p : Pending} (h : lead b = some p) : p.Wide := by
  unfold lead at h
  by_cases htwo : 0xC2 ≤ b ∧ b ≤ 0xDF
  · rw [if_pos htwo] at h
    cases h
    exact ⟨Nat.le_refl _, by simp; omega⟩
  rw [if_neg htwo] at h
  by_cases hthree : 0xE0 ≤ b ∧ b ≤ 0xEF
  · rw [if_pos hthree] at h
    cases h
    by_cases hb : b = 0xE0
    · simp [Pending.Wide, hb]
    · simp [Pending.Wide, hb]
      omega
  rw [if_neg hthree] at h
  by_cases hfour : 0xF0 ≤ b ∧ b ≤ 0xF4
  · rw [if_pos hfour] at h
    cases h
    by_cases hb : b = 0xF0
    · simp [Pending.Wide, hb]
    · simp [Pending.Wide, hb]
      omega
  rw [if_neg hfour] at h
  exact nomatch h

/-- A character begun by several bytes writes something that is not plain. -/
theorem decodeFrom_wide {p : Pending} (h : p.Wide) (bs : List UInt8) :
    ∃ q ∈ decodeFrom (some p) bs, 128 ≤ q := by
  induction bs generalizing p with
  | nil => exact ⟨replacement, List.mem_singleton.2 rfl, by decide⟩
  | cons b bs ih =>
    show ∃ q ∈ (next p b.toNat).1 ++ decodeFrom (next p b.toNat).2 bs, 128 ≤ q
    unfold next
    by_cases hout : b.toNat < p.lower ∨ p.upper < b.toNat
    · rw [if_pos hout]
      exact ⟨replacement, List.mem_cons_self, by decide⟩
    · rw [if_neg hout]
      obtain ⟨missing, point, lower, upper⟩ := p
      obtain ⟨hlower, hwide⟩ := h
      simp only at hlower hwide hout ⊢
      have hstep : (lower - 0x80) * 64 ^ missing ≤ (b.toNat - 0x80) * 64 ^ missing :=
        Nat.mul_le_mul_right _ (by omega)
      have hpoint : 128 ≤ (point * 64 + (b.toNat - 0x80)) * 64 ^ missing := by
        rw [Nat.add_mul, Nat.mul_assoc, ← Nat.pow_succ', Nat.succ_eq_add_one]
        omega
      cases missing with
      | zero => exact ⟨_, List.mem_cons_self, by simpa using hpoint⟩
      | succ n =>
        exact ih (p := ⟨n, _, 0x80, 0xBF⟩) ⟨Nat.le_refl _, by simpa using hpoint⟩

/-- Every byte writes at most one character. -/
theorem length_first (b : Nat) : (first b).1.length + (first b).2.toList.length ≤ 1 := by
  unfold first
  by_cases hplain : b < 0x80
  · rw [if_pos hplain]
    exact Nat.le_refl _
  · rw [if_neg hplain]
    cases lead b <;> exact Nat.le_refl _

theorem length_decodeFrom (s : Option Pending) (bs : List UInt8) :
    (decodeFrom s bs).length ≤ bs.length + s.toList.length := by
  induction bs generalizing s with
  | nil => cases s <;> exact Nat.le_refl _
  | cons b bs ih =>
    have hstep : (step s b.toNat).1.length + (step s b.toNat).2.toList.length ≤
        1 + s.toList.length := by
      cases s with
      | none => exact length_first _
      | some p =>
        have := length_first b.toNat
        show (next p _).1.length + (next p _).2.toList.length ≤ 2
        unfold next
        by_cases hout : b.toNat < p.lower ∨ p.upper < b.toNat
        · rw [if_pos hout, List.length_cons]
          show _ + (first b.toNat).2.toList.length ≤ 2
          omega
        · rw [if_neg hout]
          cases p.missing <;> exact Nat.le_succ _
    have hrest := ih (step s b.toNat).2
    have hout : (decodeFrom s (b :: bs)).length =
        (step s b.toNat).1.length + (decodeFrom (step s b.toNat).2 bs).length := by
      cases s <;> exact List.length_append
    rw [hout, List.length_cons]
    omega

theorem decodeFrom_plain {bs : List UInt8} (h : ∀ q ∈ decodeFrom none bs, q < 128) :
    decodeFrom none bs = bs.map UInt8.toNat := by
  induction bs with
  | nil => rfl
  | cons b bs ih =>
    change ∀ q ∈ (first b.toNat).1 ++ decodeFrom (first b.toNat).2 bs, q < 128 at h
    show (first b.toNat).1 ++ decodeFrom (first b.toNat).2 bs = _
    unfold first at h ⊢
    by_cases hplain : b.toNat < 0x80
    · rw [if_pos hplain] at h ⊢
      rw [ih fun q hq => h q (List.mem_cons_of_mem _ hq)]
      rfl
    · rw [if_neg hplain] at h
      cases hlead : lead b.toNat with
      | none =>
        rw [hlead] at h
        exact absurd (h replacement List.mem_cons_self) (by decide)
      | some p =>
        rw [hlead] at h
        obtain ⟨q, hq, hwide⟩ := decodeFrom_wide (lead_wide hlead) bs
        exact absurd (h q hq) (Nat.not_lt.2 hwide)

/-- Plain text as long as its bytes is its bytes. -/
theorem decode_plain {bs : List UInt8} {text : List Nat} (hplain : ∀ q ∈ text, q < 128)
    (hlength : bs.length = text.length) (h : decode bs = text) : bs.map UInt8.toNat = text := by
  unfold decode at h
  have hshort := length_decodeFrom none bs
  cases hout : decodeFrom none bs with
  | nil =>
    rw [hout] at h
    have hnone : ∀ q ∈ decodeFrom none bs, q < 128 := by
      rw [hout]
      exact fun q hq => nomatch hq
    rw [← decodeFrom_plain hnone, hout]
    exact h
  | cons p rest =>
    rw [hout] at h hshort
    simp only at h
    by_cases hmark : p = byteOrderMark
    · rw [if_pos hmark] at h
      subst h
      simp only [List.length_cons, Option.toList_none, List.length_nil] at hshort
      omega
    · rw [if_neg hmark] at h
      rw [← h, ← hout] at hplain
      rw [← h, ← hout]
      exact (decodeFrom_plain hplain).symm

end StshProtocol.Foundation.Utf8
