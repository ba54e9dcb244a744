import StshProtocol.Foundation.Bytes
import Mathlib.Logic.Equiv.Defs

/-! Fields of a fixed width, one behind the other.

A field writes a value as bytes of its width and reads such bytes, or refuses them. What a value is
written as is read as the value. Bytes that are read need not be what the value is written as: a
reader may pass over some of them. A field says which bytes it refuses, and which of the others are
`Plain`, those that are written as they were read; it carries the proofs, and so do the fields put
together from others. So of a whole record it is known which bytes are read for no other
(`exact_iff`). -/
namespace StshProtocol.Foundation.Layout

/-- A number of this many bytes. -/
abbrev Word (w : Nat) : Type := Fin (256 ^ w)

/-- A field of values of this type. -/
structure Codec (α : Type) where
  width : Nat
  write : α → List UInt8
  read : List UInt8 → Option α
  Refuses : List UInt8 → Prop
  Plain : List UInt8 → Prop
  length_write : ∀ a, (write a).length = width
  read_write : ∀ a, read (write a) = some a
  refuses_iff : ∀ bs, bs.length = width → (read bs = none ↔ Refuses bs)
  plain_iff : ∀ bs a, bs.length = width → read bs = some a → (write a = bs ↔ Plain bs)

/-- This many bytes from this place on. -/
def slice (bs : List UInt8) (offset n : Nat) : List UInt8 := (bs.drop offset).take n

namespace Codec
variable {α β : Type} {bs : List UInt8}

/-- The bytes are refused or read as a value that is written so. -/
def Exact (f : Codec α) (bs : List UInt8) : Prop := ∀ a, f.read bs = some a → f.write a = bs

theorem exact_iff (f : Codec α) (h : bs.length = f.width) : f.Exact bs ↔ f.Refuses bs ∨ f.Plain bs := by
  cases hread : f.read bs with
  | none => exact ⟨fun _ => .inl ((f.refuses_iff bs h).1 hread), fun _ a ha => by rw [hread] at ha; cases ha⟩
  | some a =>
    have hnot : ¬f.Refuses bs := fun hr => by
      rw [(f.refuses_iff bs h).2 hr] at hread
      cases hread
    constructor
    · exact fun hexact => .inr ((f.plain_iff bs a h hread).1 (hexact a hread))
    · rintro (hr | hplain) b hb
      · exact absurd hr hnot
      · rw [hread] at hb
        cases hb
        exact (f.plain_iff bs a h hread).2 hplain

theorem write_inj (f : Codec α) {a b : α} (h : f.write a = f.write b) : a = b := by
  have ha := f.read_write a
  rw [h, f.read_write b] at ha
  exact (Option.some.inj ha).symm

/-! ### Single fields -/

theorem word_pos (w : Nat) : 0 < 256 ^ w := Nat.pow_pos (by decide)

/-- A little-endian number. -/
def le (w : Nat) : Codec (Word w) where
  width := w
  write n := Bytes.toLe w n
  read bs := some ⟨Bytes.ofLe bs % 256 ^ w, Nat.mod_lt _ (word_pos w)⟩
  Refuses _ := False
  Plain _ := True
  length_write n := Bytes.length_toLe w n
  read_write n := congrArg some (Fin.ext (by
    show Bytes.ofLe (Bytes.toLe w n) % 256 ^ w = n
    rw [Bytes.ofLe_toLe, Nat.mod_mod, Nat.mod_eq_of_lt n.isLt]))
  refuses_iff _ _ := ⟨nofun, nofun⟩
  plain_iff bs a h hread := by
    cases hread
    refine ⟨fun _ => trivial, fun _ => ?_⟩
    have hlt := Bytes.ofLe_lt bs
    rw [h] at hlt
    show Bytes.toLe w (Bytes.ofLe bs % 256 ^ w) = bs
    rw [Nat.mod_eq_of_lt hlt, ← h, Bytes.toLe_ofLe]

/-- A big-endian number. -/
def be (w : Nat) : Codec (Word w) where
  width := w
  write n := Bytes.toBe w n
  read bs := some ⟨Bytes.ofBe bs % 256 ^ w, Nat.mod_lt _ (word_pos w)⟩
  Refuses _ := False
  Plain _ := True
  length_write n := Bytes.length_toBe w n
  read_write n := congrArg some (Fin.ext (by
    show Bytes.ofBe (Bytes.toBe w n) % 256 ^ w = n
    rw [Bytes.ofBe_toBe n.isLt, Nat.mod_eq_of_lt n.isLt]))
  refuses_iff _ _ := ⟨nofun, nofun⟩
  plain_iff bs a h hread := by
    cases hread
    refine ⟨fun _ => trivial, fun _ => ?_⟩
    have hlt := Bytes.ofBe_lt bs
    rw [h] at hlt
    show Bytes.toBe w (Bytes.ofBe bs % 256 ^ w) = bs
    rw [Nat.mod_eq_of_lt hlt, Bytes.toBe_ofBe h]

/-- Bytes that meet a check, as they are. -/
def raw (n : Nat) (ok : List UInt8 → Bool) : Codec {bs : List UInt8 // bs.length = n ∧ ok bs = true} where
  width := n
  write a := a.val
  read bs := if h : bs.length = n ∧ ok bs = true then some ⟨bs, h⟩ else none
  Refuses bs := ok bs = false
  Plain _ := True
  length_write a := a.property.1
  read_write a := dif_pos a.property
  refuses_iff bs h := by
    by_cases hok : ok bs = true
    · rw [dif_pos ⟨h, hok⟩]
      exact ⟨nofun, fun hno => absurd (hok.symm.trans hno) (by decide)⟩
    · rw [dif_neg fun hboth => hok hboth.2]
      exact ⟨fun _ => Bool.eq_false_iff.2 hok, fun _ => rfl⟩
  plain_iff bs a h hread := by
    by_cases hok : bs.length = n ∧ ok bs = true
    · rw [dif_pos hok] at hread
      cases hread
      exact ⟨fun _ => trivial, fun _ => rfl⟩
    · rw [dif_neg hok] at hread
      cases hread

/-- Zeros that are passed over. -/
def blank (n : Nat) : Codec Unit where
  width := n
  write _ := List.replicate n 0
  read _ := some ()
  Refuses _ := False
  Plain bs := bs = List.replicate n 0
  length_write _ := List.length_replicate
  read_write _ := rfl
  refuses_iff _ _ := ⟨nofun, nofun⟩
  plain_iff _ _ _ _ := eq_comm

theorem blank_width (n : Nat) : (blank n).width = n := rfl

/-- A byte that must be there. -/
def const (v : UInt8) : Codec Unit where
  width := 1
  write _ := [v]
  read bs := if bs = [v] then some () else none
  Refuses bs := bs ≠ [v]
  Plain _ := True
  length_write _ := rfl
  read_write _ := if_pos rfl
  refuses_iff bs _ := by
    by_cases h : bs = [v]
    · rw [if_pos h]
      exact ⟨nofun, fun hne => absurd h hne⟩
    · rw [if_neg h]
      exact ⟨fun _ => h, fun _ => rfl⟩
  plain_iff bs _ _ hread := by
    by_cases h : bs = [v]
    · exact ⟨fun _ => trivial, fun _ => h.symm⟩
    · rw [if_neg h] at hread
      cases hread

/-- What a byte is taken for, where zero is no and one is yes. -/
structure Presence where
  reads : UInt8 → Option Bool
  zero : reads 0 = some false
  one : reads 1 = some true

/-- A byte that says yes or no. -/
def flag (p : Presence) : Codec Bool where
  width := 1
  write b := [if b then 1 else 0]
  read bs := bs.head?.bind p.reads
  Refuses bs := bs.head?.bind p.reads = none
  Plain bs := bs = [0] ∨ bs = [1]
  length_write _ := rfl
  read_write b := by
    cases b with
    | false => exact p.zero
    | true => exact p.one
  refuses_iff _ _ := Iff.rfl
  plain_iff bs b h hread := by
    obtain ⟨t, rfl⟩ := List.length_eq_one_iff.1 h
    have ht : p.reads t = some b := hread
    constructor
    · intro heq
      cases b with
      | false => exact .inl heq.symm
      | true => exact .inr heq.symm
    · rintro (heq | heq)
      · cases heq
        rw [p.zero] at ht
        cases ht
        rfl
      · cases heq
        rw [p.one] at ht
        cases ht
        rfl

/-! ### Fields put together -/

/-- One field behind another. -/
def pair (f : Codec α) (g : Codec β) : Codec (α × β) where
  width := f.width + g.width
  write a := f.write a.1 ++ g.write a.2
  read bs := (f.read (bs.take f.width)).bind fun a => (g.read (bs.drop f.width)).map fun b => (a, b)
  Refuses bs := f.Refuses (bs.take f.width) ∨ g.Refuses (bs.drop f.width)
  Plain bs := f.Plain (bs.take f.width) ∧ g.Plain (bs.drop f.width)
  length_write a := by rw [List.length_append, f.length_write, g.length_write]
  read_write a := by
    rw [List.take_left' (f.length_write a.1), List.drop_left' (f.length_write a.1), f.read_write,
      g.read_write]
    rfl
  refuses_iff bs h := by
    have hf := f.refuses_iff (bs.take f.width) (by rw [List.length_take]; omega)
    have hg := g.refuses_iff (bs.drop f.width) (by rw [List.length_drop]; omega)
    rw [← hf, ← hg, Option.bind_eq_none_iff]
    constructor
    · intro hnone
      cases hread : f.read (bs.take f.width) with
      | none => exact .inl rfl
      | some a => exact .inr (Option.map_eq_none_iff.1 (hnone a hread))
    · rintro (hnone | hnone) a ha
      · rw [hnone] at ha
        cases ha
      · rw [hnone]
        rfl
  plain_iff bs a h hread := by
    obtain ⟨a₁, ha₁, hrest⟩ := Option.bind_eq_some_iff.1 hread
    obtain ⟨a₂, ha₂, rfl⟩ := Option.map_eq_some_iff.1 hrest
    have hf := f.plain_iff (bs.take f.width) a₁ (by rw [List.length_take]; omega) ha₁
    have hg := g.plain_iff (bs.drop f.width) a₂ (by rw [List.length_drop]; omega) ha₂
    rw [← hf, ← hg]
    constructor
    · intro heq
      rw [← heq, List.take_left' (f.length_write a₁), List.drop_left' (f.length_write a₁)]
      exact ⟨rfl, rfl⟩
    · rintro ⟨hleft, hright⟩
      rw [hleft, hright, List.take_append_drop]

/-- A field of values that correspond to those of another. -/
def iso (f : Codec α) (e : α ≃ β) : Codec β where
  width := f.width
  write b := f.write (e.symm b)
  read bs := (f.read bs).map e
  Refuses := f.Refuses
  Plain := f.Plain
  length_write b := f.length_write _
  read_write b := by rw [f.read_write, Option.map_some, e.apply_symm_apply]
  refuses_iff bs h := by rw [Option.map_eq_none_iff, f.refuses_iff bs h]
  plain_iff bs b h hread := by
    obtain ⟨a, ha, rfl⟩ := Option.map_eq_some_iff.1 hread
    rw [e.symm_apply_apply, f.plain_iff bs a h ha]

/-- One of two fields of one width, behind a byte that says which. -/
def sum (p : Presence) (f : Codec α) (g : Codec β) (hwidth : f.width = g.width) : Codec (α ⊕ β) where
  width := 1 + f.width
  write
    | .inl a => 0 :: f.write a
    | .inr b => 1 :: g.write b
  read
    | [] => none
    | t :: rest =>
      match p.reads t with
      | none => none
      | some false => (f.read rest).map .inl
      | some true => (g.read rest).map .inr
  Refuses
    | [] => True
    | t :: rest =>
      match p.reads t with
      | none => True
      | some false => f.Refuses rest
      | some true => g.Refuses rest
  Plain
    | [] => False
    | t :: rest =>
      match p.reads t with
      | none => False
      | some false => t = 0 ∧ f.Plain rest
      | some true => t = 1 ∧ g.Plain rest
  length_write
    | .inl a => by rw [List.length_cons, f.length_write, Nat.add_comm]
    | .inr b => by rw [List.length_cons, g.length_write, hwidth, Nat.add_comm]
  read_write
    | .inl a => by simp only [p.zero, f.read_write, Option.map_some]
    | .inr b => by simp only [p.one, g.read_write, Option.map_some]
  refuses_iff bs h := by
    cases bs with
    | nil => exact ⟨fun _ => trivial, fun _ => rfl⟩
    | cons t rest =>
      have hrest : rest.length = f.width := by
        rw [List.length_cons] at h
        omega
      cases ht : p.reads t with
      | none => simp only [ht]
      | some b =>
        cases b with
        | false => simp only [ht, Option.map_eq_none_iff, f.refuses_iff rest hrest]
        | true => simp only [ht, Option.map_eq_none_iff, g.refuses_iff rest (hrest.trans hwidth)]
  plain_iff bs a h hread := by
    cases bs with
    | nil => cases hread
    | cons t rest =>
      have hrest : rest.length = f.width := by
        rw [List.length_cons] at h
        omega
      cases ht : p.reads t with
      | none =>
        simp only [ht] at hread
        cases hread
      | some b =>
        cases b with
        | false =>
          simp only [ht] at hread
          obtain ⟨a', ha', rfl⟩ := Option.map_eq_some_iff.1 hread
          simp only [ht, List.cons.injEq]
          exact and_congr eq_comm (f.plain_iff rest a' hrest ha')
        | true =>
          simp only [ht] at hread
          obtain ⟨a', ha', rfl⟩ := Option.map_eq_some_iff.1 hread
          simp only [ht, List.cons.injEq]
          exact and_congr eq_comm (g.plain_iff rest a' (hrest.trans hwidth) ha')

section Sum
variable {p : Presence} {f : Codec α} {g : Codec β} {e : f.width = g.width} {t : UInt8}
  {rest : List UInt8}

theorem sum_refuses_cons : (sum p f g e).Refuses (t :: rest) ↔
    p.reads t = none ∨ p.reads t = some false ∧ f.Refuses rest ∨
      p.reads t = some true ∧ g.Refuses rest := by
  show (match p.reads t with
    | none => True
    | some false => f.Refuses rest
    | some true => g.Refuses rest) ↔ _
  cases p.reads t with
  | none => simp
  | some b => cases b <;> simp

/-- What the byte says is not in doubt where it is zero or one. -/
theorem sum_plain_cons : (sum p f g e).Plain (t :: rest) ↔
    t = 0 ∧ f.Plain rest ∨ t = 1 ∧ g.Plain rest := by
  show (match p.reads t with
    | none => False
    | some false => t = 0 ∧ f.Plain rest
    | some true => t = 1 ∧ g.Plain rest) ↔ _
  have hzero : t = 0 → p.reads t = some false := fun h => h ▸ p.zero
  have hone : t = 1 → p.reads t = some true := fun h => h ▸ p.one
  cases ht : p.reads t with
  | none =>
    rw [ht] at hzero hone
    exact ⟨nofun, fun h => h.elim (fun h => nomatch hzero h.1) fun h => nomatch hone h.1⟩
  | some b =>
    rw [ht] at hzero hone
    cases b with
    | false => exact ⟨.inl, fun h => h.elim id fun h => nomatch hone h.1⟩
    | true => exact ⟨.inr, fun h => h.elim (fun h => nomatch hzero h.1) id⟩

end Sum

/-- A value that may be absent; then zeros stand in its place. -/
def option (p : Presence) (f : Codec α) : Codec (Option α) :=
  (sum p (blank f.width) f (blank_width f.width)).iso
    { toFun := fun
        | .inl _ => none
        | .inr a => some a
      invFun := fun
        | none => .inl ()
        | some a => .inr a
      left_inv := fun
        | .inl _ => rfl
        | .inr _ => rfl
      right_inv := fun
        | none => rfl
        | some _ => rfl }

theorem option_refuses_cons {p : Presence} {f : Codec α} {t : UInt8} {rest : List UInt8} :
    (option p f).Refuses (t :: rest) ↔ p.reads t = none ∨ p.reads t = some true ∧ f.Refuses rest := by
  show (sum p (blank f.width) f (blank_width f.width)).Refuses (t :: rest) ↔ _
  rw [sum_refuses_cons]
  exact or_congr_right ⟨fun h => h.resolve_left fun hblank => hblank.2, .inr⟩

theorem option_plain_cons {p : Presence} {f : Codec α} {t : UInt8} {rest : List UInt8} :
    (option p f).Plain (t :: rest) ↔
      t = 0 ∧ rest = List.replicate f.width 0 ∨ t = 1 ∧ f.Plain rest := by
  show (sum p (blank f.width) f (blank_width f.width)).Plain (t :: rest) ↔ _
  rw [sum_plain_cons]
  exact Iff.rfl

/-- This many values in a row. -/
def array (f : Codec α) : (n : Nat) → Codec {l : List α // l.length = n}
  | 0 =>
    { width := 0
      write := fun _ => []
      read := fun _ => some ⟨[], rfl⟩
      Refuses := fun _ => False
      Plain := fun _ => True
      length_write := fun _ => rfl
      read_write := fun a => congrArg some (Subtype.ext (List.eq_nil_of_length_eq_zero a.property).symm)
      refuses_iff := fun _ _ => ⟨nofun, nofun⟩
      plain_iff := fun _ _ h _ => ⟨fun _ => trivial, fun _ => (List.eq_nil_of_length_eq_zero h).symm⟩ }
  | n + 1 =>
    (f.pair (f.array n)).iso
      { toFun := fun a => ⟨a.1 :: a.2.val, congrArg (· + 1) a.2.property⟩
        invFun := fun
          | ⟨a :: l, h⟩ => (a, ⟨l, Nat.succ.inj h⟩)
        left_inv := fun _ => rfl
        right_inv := fun
          | ⟨_ :: _, _⟩ => rfl }

theorem array_width (f : Codec α) (n : Nat) : (f.array n).width = f.width * n := by
  induction n with
  | zero => rfl
  | succ n ih =>
    show f.width + (f.array n).width = _
    rw [ih, Nat.mul_succ, Nat.add_comm]

theorem array_refuses_iff (f : Codec α) (n : Nat) (bs : List UInt8) :
    (f.array n).Refuses bs ↔ ∃ i < n, f.Refuses (slice bs (f.width * i) f.width) := by
  induction n generalizing bs with
  | zero => exact ⟨nofun, fun ⟨_, hi, _⟩ => absurd hi (Nat.not_lt_zero _)⟩
  | succ n ih =>
    show f.Refuses (bs.take f.width) ∨ (f.array n).Refuses (bs.drop f.width) ↔ _
    rw [ih, Nat.exists_lt_succ_left]
    simp only [slice, Nat.mul_zero, List.drop_zero, List.drop_drop, Nat.mul_succ, Nat.add_comm]

theorem array_plain_iff (f : Codec α) (n : Nat) (bs : List UInt8) :
    (f.array n).Plain bs ↔ ∀ i < n, f.Plain (slice bs (f.width * i) f.width) := by
  induction n generalizing bs with
  | zero => exact ⟨fun _ i hi => absurd hi (Nat.not_lt_zero i), fun _ => trivial⟩
  | succ n ih =>
    show f.Plain (bs.take f.width) ∧ (f.array n).Plain (bs.drop f.width) ↔ _
    rw [ih, Nat.forall_lt_succ_left]
    simp only [slice, Nat.mul_zero, List.drop_zero, List.drop_drop, Nat.mul_succ, Nat.add_comm]

end Codec
end StshProtocol.Foundation.Layout
