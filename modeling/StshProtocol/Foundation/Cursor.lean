import StshProtocol.Foundation.Bytes
import StshProtocol.Foundation.Except

/-! Reading bytes with a cursor.

A reader is given all the bytes and where it stands in them, and says where it stops. What it
accepts is told by a writer: it goes over what the writer would have written, and over nothing else
(`Reads`). What readers in a row go over is put together by `Spans.append`. -/
namespace StshProtocol.Foundation.Cursor

abbrev Reader (ε α : Type) : Type := List UInt8 → Nat → Except ε (α × Nat)

/-- The bytes from one place to the next are this part. -/
def Spans (bytes : List UInt8) (pos : Nat) (part : List UInt8) (next : Nat) : Prop :=
  next = pos + part.length ∧ bytes.drop pos = part ++ bytes.drop next

def Reads {ε α : Type} (read : Reader ε α) (write : α → List UInt8) (fits : α → Prop) : Prop :=
  ∀ bytes pos a next, read bytes pos = .ok (a, next) ↔ fits a ∧ Spans bytes pos (write a) next

section Spans
variable {bytes part part' : List UInt8} {pos next last : Nat}

theorem spans_front (part rest : List UInt8) : Spans (part ++ rest) 0 part part.length :=
  ⟨(Nat.zero_add _).symm, by rw [List.drop_zero, List.drop_left]⟩

theorem Spans.append (h : Spans bytes pos part next) (h' : Spans bytes next part' last) :
    Spans bytes pos (part ++ part') last := by
  obtain ⟨rfl, hdrop⟩ := h
  obtain ⟨rfl, hdrop'⟩ := h'
  refine ⟨by rw [List.length_append, Nat.add_assoc], ?_⟩
  rw [hdrop, hdrop', List.append_assoc]

theorem Spans.split (h : Spans bytes pos (part ++ part') last) :
    Spans bytes pos part (pos + part.length) ∧ Spans bytes (pos + part.length) part' last := by
  obtain ⟨rfl, hdrop⟩ := h
  have hrest : bytes.drop (pos + part.length) = part' ++ bytes.drop (pos + (part ++ part').length) := by
    rw [← List.drop_drop, hdrop, List.append_assoc, List.drop_left]
  refine ⟨⟨rfl, ?_⟩, by rw [List.length_append, Nat.add_assoc], hrest⟩
  rw [hrest, hdrop, List.append_assoc]

/-- What stands at the front of the bytes. -/
theorem Spans.front (h : Spans bytes 0 part next) :
    bytes = part ++ bytes.drop next ∧ bytes.take next = part := by
  obtain ⟨rfl, hdrop⟩ := h
  rw [List.drop_zero, Nat.zero_add] at hdrop
  rw [Nat.zero_add]
  refine ⟨hdrop, ?_⟩
  conv_lhs => rw [hdrop]
  exact List.take_left

theorem Spans.extract_eq (h : Spans bytes pos part next) : bytes.extract pos next = part := by
  obtain ⟨rfl, hdrop⟩ := h
  rw [List.extract_eq_take_drop, hdrop, Nat.add_sub_cancel_left]
  exact List.take_left

theorem Spans.le (h : Spans bytes pos part next) (hpart : part ≠ []) : next ≤ bytes.length := by
  obtain ⟨rfl, hdrop⟩ := h
  have hpos := List.length_pos_iff.2 hpart
  have hlength := congrArg List.length hdrop
  rw [List.length_append, List.length_drop, List.length_drop] at hlength
  omega

theorem spans_extract (h : pos ≤ next) (hle : next ≤ bytes.length) :
    Spans bytes pos (bytes.extract pos next) next := by
  have hlength : (bytes.extract pos next).length = next - pos := by
    rw [List.extract_eq_take_drop, List.length_take, List.length_drop]
    omega
  have hrest : bytes.drop next = (bytes.drop pos).drop (next - pos) := by
    rw [List.drop_drop, Nat.add_sub_cancel' h]
  exact ⟨by omega, by rw [hrest, List.extract_eq_take_drop, List.take_append_drop]⟩

end Spans

section Readers
variable {ε α β : Type} {read : Reader ε α} {write : α → List UInt8} {fits : α → Prop}

/-- A reader and what comes after it. -/
theorem Reads.bind_iff (h : Reads read write fits) {bytes : List UInt8} {pos : Nat}
    {rest : α × Nat → Except ε β} {b : β} :
    read bytes pos >>= rest = .ok b ↔
      ∃ a next, fits a ∧ Spans bytes pos (write a) next ∧ rest (a, next) = .ok b := by
  rw [bind_eq_ok_iff]
  constructor
  · rintro ⟨⟨a, next⟩, hread, hrest⟩
    obtain ⟨hfits, hspans⟩ := (h _ _ _ _).1 hread
    exact ⟨a, next, hfits, hspans, hrest⟩
  · rintro ⟨a, next, hfits, hspans, hrest⟩
    exact ⟨(a, next), (h _ _ _ _).2 ⟨hfits, hspans⟩, hrest⟩

/-- So many bytes, read as what they stand for. -/
theorem reads_fixed (n : Nat) (hn : 0 < n) (value : List UInt8 → α) (e : ε)
    (hread : ∀ bytes pos, read bytes pos =
      if bytes.length < pos + n then .error e
      else .ok (value (bytes.extract pos (pos + n)), pos + n))
    (hwritten : ∀ a, fits a → (write a).length = n ∧ value (write a) = a)
    (hvalue : ∀ part, part.length = n → fits (value part) ∧ write (value part) = part) :
    Reads read write fits := by
  intro bytes pos a next
  rw [hread]
  constructor
  · intro hok
    by_cases hshort : bytes.length < pos + n
    · rw [if_pos hshort] at hok
      exact nomatch hok
    · rw [if_neg hshort, Except.ok.injEq, Prod.mk.injEq] at hok
      obtain ⟨rfl, rfl⟩ := hok
      have hspans := spans_extract (Nat.le_add_right pos n) (Nat.not_lt.1 hshort)
      obtain ⟨hfits, hwrite⟩ := hvalue _ (Nat.add_left_cancel hspans.1).symm
      exact ⟨hfits, hwrite.symm ▸ hspans⟩
  · rintro ⟨hfits, hspans⟩
    obtain ⟨hlength, hback⟩ := hwritten a hfits
    have hle := hspans.le (List.ne_nil_of_length_pos (by omega))
    obtain rfl : next = pos + n := by rw [hspans.1, hlength]
    rw [if_neg (Nat.not_lt.2 hle), hspans.extract_eq, hback]

end Readers

end StshProtocol.Foundation.Cursor
