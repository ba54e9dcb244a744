import Mathlib.Algebra.Order.Field.Rat
import Mathlib.Tactic.FieldSimp
import StshProtocol.Wallet.Text

/-! Amounts of the token as text.

Commas are taken out of what was typed before it is looked at, so an amount is read also where a
comma does not separate thousands: `1,5` is fifteen. What was written is read exactly when no comma
stands elsewhere (`amounts_read_as_written`). -/
namespace StshProtocol.Wallet.TokenFormat

def stshDecimals : Nat := 8

def comma : UInt16 := 44
def minus : UInt16 := 45
def point : UInt16 := 46
def zero : UInt16 := 48

/-- Thousands separators in a string of digits: one at each place inside it that a multiple of three
digits follows. -/
def groupThousands : JsString → JsString
  | [] => []
  | c :: rest =>
    if rest ≠ [] ∧ rest.length % 3 = 0 then c :: comma :: groupThousands rest
    else c :: groupThousands rest

def formatUnits (baseUnits decimals : Nat) : JsString :=
  let scale := 10 ^ decimals
  let whole := baseUnits / scale
  let frac := baseUnits % scale
  let wholeStr := groupThousands (decimal whole)
  if frac = 0 then wholeStr
  else
    let fracStr := ((decimal frac).leftpad decimals zero).rdropWhile (· == zero)
    wholeStr ++ [point] ++ fracStr

def formatStsh (baseUnits : Int) (decimals : Nat) : JsString :=
  if baseUnits < 0 then [minus] ++ formatUnits (-baseUnits).toNat decimals
  else formatUnits baseUnits.toNat decimals

/-- `replace(/,/g, "")`. -/
def dropCommas (s : JsString) : JsString := s.filter (· != comma)

/-- `/^\d+(\.\d+)?$/`. -/
def isAmount (s : JsString) : Bool :=
  let rest := s.dropWhile isDigit
  !(s.takeWhile isDigit).isEmpty &&
    match rest with
    | [] => true
    | c :: frac => c == point && !frac.isEmpty && frac.all isDigit

inductive AmountError where
  | invalidAmount (input : JsString)
  | tooManyDecimalPlaces (max : Nat) (input : JsString)
  deriving DecidableEq, Repr

/-- `const [whole, frac = ""] = cleaned.split(".")`. -/
def parts (cleaned : JsString) : JsString × JsString :=
  match cleaned.splitOn point with
  | [] => ([], [])
  | [whole] => (whole, [])
  | whole :: frac :: _ => (whole, frac)

def parseStsh (input : JsString) (decimals : Nat) : Except AmountError Nat :=
  let cleaned := dropCommas (trim input)
  if isAmount cleaned then
    let (whole, frac) := parts cleaned
    if decimals < frac.length then .error (.tooManyDecimalPlaces decimals input)
    else
      let scale := 10 ^ decimals
      .ok (numeral whole * scale + numeral (frac.rightpad decimals zero))
  else .error (.invalidAmount input)

example : parseStsh (literal " 12,345.5 ") 8 = .ok 1234550000000 := by decide +kernel

example : formatStsh 1234500000000 8 = literal "12,345" := by decide +kernel

/-! ### Amounts as they are written -/

/-- Three digits. -/
def IsGroup (g : JsString) : Prop := g.length = 3 ∧ ∀ c ∈ g, isDigit c

/-- An amount as it is written: groups of digits, three in each but the first, and maybe a
fraction. -/
structure Written where
  first : JsString
  groups : List JsString
  frac : Option JsString
  first_ne : first ≠ []
  first_digits : ∀ c ∈ first, isDigit c
  groups_digits : ∀ g ∈ groups, IsGroup g
  frac_digits : ∀ f ∈ frac, f ≠ [] ∧ ∀ c ∈ f, isDigit c

namespace Written

/-- The digits of the fraction. -/
def places (w : Written) : JsString := w.frac.getD []

/-- The digits before the point. -/
def whole (w : Written) : JsString := w.first ++ w.groups.flatten

/-- The fraction behind its point. -/
def tail (frac : Option JsString) : JsString := frac.elim [] (point :: ·)

/-- The groups behind their commas, and the fraction. -/
def following (groups : List JsString) (frac : Option JsString) : JsString :=
  groups.flatMap (comma :: ·) ++ tail frac

def text (w : Written) : JsString := w.first ++ following w.groups w.frac

/-- The number that is written. -/
def number (w : Written) : ℚ := numeral w.whole + numeral w.places / 10 ^ w.places.length

end Written

/-- What is read of an input is what it says: it has the form of an amount, with no more than so
many places, and the amount is read in the unit of the last place. -/
def ReadAsWritten (s : JsString) (decimals : Nat) : Prop :=
  ∀ v, parseStsh s decimals = .ok v → ∃ w : Written, trim s = w.text ∧
    w.places.length ≤ decimals ∧ (v : ℚ) = 10 ^ decimals * w.number

/-- What may stand behind a comma: three digits, and then no further digit. -/
def ThreeDigits (after : JsString) : Prop :=
  ∃ g rest, after = g ++ rest ∧ IsGroup g ∧
    (rest = [] ∨ rest.head? = some comma ∨ rest.head? = some point)

/-- Every comma separates thousands: it has something before it, no point among that, and three
digits behind it. -/
def Separates (s : JsString) : Prop :=
  ∀ before after, s = before ++ comma :: after → before ≠ [] ∧ point ∉ before ∧ ThreeDigits after

/-- An amount of so many places, by its characters other than commas. -/
def AmountWithin (s : JsString) (decimals : Nat) : Prop :=
  isAmount (dropCommas s) ∧ (parts (dropCommas s)).2.length ≤ decimals

/-! ### Reading -/

theorem point_digit : isDigit point = false := by decide

/-- Digits, and maybe a fraction. -/
structure Amount (whole : JsString) (frac : Option JsString) : Prop where
  whole_ne : whole ≠ []
  whole_digits : ∀ c ∈ whole, isDigit c
  frac_digits : ∀ f ∈ frac, f ≠ [] ∧ ∀ c ∈ f, isDigit c

theorem tail_stops (frac : Option JsString) : ∀ c ∈ (Written.tail frac).head?, isDigit c = false := by
  cases frac with
  | none => exact fun c hc => nomatch hc
  | some f =>
    intro c hc
    rw [← Option.some.inj hc]
    exact point_digit

theorem span_digits {w u : JsString} (hw : ∀ c ∈ w, isDigit c)
    (hrest : ∀ c ∈ u.head?, isDigit c = false) :
    (w ++ u).takeWhile isDigit = w ∧ (w ++ u).dropWhile isDigit = u := by
  rw [List.takeWhile_append_of_pos hw, List.dropWhile_append_of_pos hw]
  cases u with
  | nil => exact ⟨List.append_nil w, rfl⟩
  | cons c u =>
    have hc : ¬isDigit c := by rw [hrest c rfl]; exact Bool.false_ne_true
    rw [List.takeWhile_cons_of_neg hc, List.dropWhile_cons_of_neg hc, List.append_nil]
    exact ⟨rfl, rfl⟩

theorem Amount.accepted {whole : JsString} {frac : Option JsString} (h : Amount whole frac) :
    isAmount (whole ++ Written.tail frac) = true := by
  obtain ⟨htake, hdrop⟩ := span_digits h.whole_digits (tail_stops frac)
  rw [isAmount, htake, hdrop, List.isEmpty_eq_false_iff.2 h.whole_ne]
  cases frac with
  | none => rfl
  | some f =>
    obtain ⟨hne, hdigits⟩ := h.frac_digits f rfl
    show (_ && (point == point && !f.isEmpty && f.all isDigit)) = true
    rw [List.isEmpty_eq_false_iff.2 hne, List.all_eq_true.2 hdigits]
    rfl

theorem Amount.of_accepted {s : JsString} (h : isAmount s = true) :
    ∃ whole frac, s = whole ++ Written.tail frac ∧ Amount whole frac := by
  rw [isAmount, Bool.and_eq_true, Bool.not_eq_true', List.isEmpty_eq_false_iff] at h
  obtain ⟨hne, hrest⟩ := h
  have hs : s = s.takeWhile isDigit ++ s.dropWhile isDigit := List.takeWhile_append_dropWhile.symm
  have hdigits : ∀ c ∈ s.takeWhile isDigit, isDigit c := fun c hc => List.mem_takeWhile_imp hc
  cases hdrop : s.dropWhile isDigit with
  | nil =>
    refine ⟨s.takeWhile isDigit, none, ?_, hne, hdigits, fun f hf => nomatch hf⟩
    rw [hdrop] at hs
    exact hs
  | cons c frac =>
    rw [hdrop] at hs hrest
    simp only [Bool.and_eq_true, Bool.not_eq_true', List.isEmpty_eq_false_iff, beq_iff_eq,
      List.all_eq_true] at hrest
    obtain ⟨⟨rfl, hfrac⟩, hall⟩ := hrest
    refine ⟨s.takeWhile isDigit, some frac, hs, hne, hdigits, fun f hf => ?_⟩
    cases hf
    exact ⟨hfrac, hall⟩

theorem parts_amount {whole : JsString} {frac : Option JsString} (h : Amount whole frac) :
    parts (whole ++ Written.tail frac) = (whole, frac.getD []) := by
  have hsplit : ∀ w : JsString, (∀ c ∈ w, isDigit c) → ∀ c ∈ w, (c == point) = false := by
    intro w hw c hc
    rw [beq_eq_false_iff_ne]
    rintro rfl
    exact absurd (hw point hc) (by decide)
  cases frac with
  | none =>
    rw [Written.tail, Option.elim_none, List.append_nil, parts, List.splitOn,
      List.splitOnP_eq_singleton (hsplit whole h.whole_digits)]
    rfl
  | some f =>
    rw [Written.tail, Option.elim_some, parts, List.splitOn,
      List.splitOnP_append_cons (p := (· == point)) whole f (beq_self_eq_true point),
      List.splitOnP_eq_singleton (hsplit whole h.whole_digits),
      List.splitOnP_eq_singleton (hsplit f (h.frac_digits f rfl).2)]
    rfl

theorem numeral_padded {f : JsString} {decimals : Nat} :
    numeral (f.rightpad decimals zero) = numeral f * 10 ^ (decimals - f.length) := by
  rw [List.rightpad, numeral_append, List.length_replicate]
  exact congrArg _ (numeral_zeros _)

/-- What is read is the number of the digits, in the unit of the last place. -/
theorem scaled {whole frac : JsString} {decimals : Nat} (h : frac.length ≤ decimals) :
    ((numeral whole * 10 ^ decimals + numeral (frac.rightpad decimals zero) : Nat) : ℚ) =
      10 ^ decimals * (numeral whole + numeral frac / 10 ^ frac.length) := by
  have hpow : (10 : ℚ) ^ decimals = 10 ^ (decimals - frac.length) * 10 ^ frac.length := by
    rw [← pow_add, Nat.sub_add_cancel h]
  have hne : (10 : ℚ) ^ frac.length ≠ 0 := pow_ne_zero _ (by decide)
  rw [numeral_padded]
  push_cast
  rw [mul_add, mul_comm (10 ^ decimals) (numeral whole : ℚ), hpow]
  congr 1
  field_simp

theorem parse_amount {s : JsString} {decimals : Nat} {whole : JsString} {frac : Option JsString}
    (h : Amount whole frac) (hs : dropCommas (trim s) = whole ++ Written.tail frac)
    (hplaces : (frac.getD []).length ≤ decimals) :
    parseStsh s decimals =
      .ok (numeral whole * 10 ^ decimals + numeral ((frac.getD []).rightpad decimals zero)) := by
  rw [parseStsh, hs]
  simp only [h.accepted, parts_amount h, if_true, if_neg (Nat.not_lt.2 hplaces)]

/-- What was read had the form of an amount. -/
theorem amount_of_parse {s : JsString} {decimals v : Nat} (h : parseStsh s decimals = .ok v) :
    ∃ whole frac, dropCommas (trim s) = whole ++ Written.tail frac ∧ Amount whole frac ∧
      (frac.getD []).length ≤ decimals := by
  unfold parseStsh at h
  by_cases hamount : isAmount (dropCommas (trim s)) = true
  · obtain ⟨whole, frac, hs, ham⟩ := Amount.of_accepted hamount
    refine ⟨whole, frac, hs, ham, Nat.not_lt.1 fun hlt => ?_⟩
    simp only [hs, ham.accepted, parts_amount ham, if_true, if_pos hlt] at h
    exact nomatch h
  · simp only [if_neg hamount] at h
    exact nomatch h

theorem amountWithin_iff {s : JsString} {decimals : Nat} :
    AmountWithin (trim s) decimals ↔ ∃ v, parseStsh s decimals = .ok v := by
  constructor
  · rintro ⟨hamount, hplaces⟩
    obtain ⟨whole, frac, hs, ham⟩ := Amount.of_accepted hamount
    rw [hs, parts_amount ham] at hplaces
    exact ⟨_, parse_amount ham hs hplaces⟩
  · rintro ⟨v, hv⟩
    obtain ⟨whole, frac, hs, ham, hplaces⟩ := amount_of_parse hv
    rw [AmountWithin, hs, parts_amount ham]
    exact ⟨ham.accepted, hplaces⟩

/-! ### Written amounts -/

namespace Written

theorem groups_flat {groups : List JsString}
    (h : ∀ g ∈ groups, IsGroup g) : ∀ c ∈ groups.flatten, isDigit c := by
  intro c hc
  obtain ⟨g, hg, hmem⟩ := List.mem_flatten.1 hc
  exact (h g hg).2 c hmem

theorem amount (w : Written) : Amount w.whole w.frac where
  whole_ne := List.append_ne_nil_of_left_ne_nil w.first_ne _
  whole_digits c hc := (List.mem_append.1 hc).elim (w.first_digits c) (groups_flat w.groups_digits c)
  frac_digits := w.frac_digits

end Written

theorem comma_not_mem {s : JsString} (h : ∀ c ∈ s, isDigit c) : comma ∉ s :=
  fun hmem => absurd (h comma hmem) (by decide)

theorem point_not_mem {s : JsString} (h : ∀ c ∈ s, isDigit c) : point ∉ s :=
  fun hmem => absurd (h point hmem) (by decide)

theorem comma_not_mem_tail {frac : Option JsString} (h : ∀ f ∈ frac, f ≠ [] ∧ ∀ c ∈ f, isDigit c) :
    comma ∉ Written.tail frac := by
  cases frac with
  | none => exact List.not_mem_nil
  | some f =>
    refine fun hmem => (List.mem_cons.1 hmem).elim (fun heq => absurd heq (by decide)) ?_
    exact comma_not_mem (h f rfl).2

theorem dropCommas_self {s : JsString} (h : comma ∉ s) : dropCommas s = s :=
  List.filter_eq_self.2 fun _ hc => bne_iff_ne.2 fun heq => h (heq ▸ hc)

theorem dropCommas_groups {groups : List JsString} {t : JsString}
    (hgroups : ∀ g ∈ groups, IsGroup g) (ht : comma ∉ t) :
    dropCommas (groups.flatMap (comma :: ·) ++ t) = groups.flatten ++ t := by
  rw [dropCommas, List.filter_append]
  refine congr (congrArg _ ?_) (dropCommas_self ht)
  induction groups with
  | nil => rfl
  | cons g groups ih =>
    rw [List.flatMap_cons, List.filter_append, List.filter_cons_of_neg (by decide), List.flatten_cons,
      ih fun g hg => hgroups g (List.mem_cons_of_mem _ hg)]
    exact congrArg (· ++ _) (dropCommas_self (comma_not_mem (hgroups g List.mem_cons_self).2))

theorem dropCommas_text (w : Written) : dropCommas w.text = w.whole ++ Written.tail w.frac := by
  rw [Written.text, dropCommas, List.filter_append, Written.whole, List.append_assoc]
  exact congr (congrArg _ (dropCommas_self (comma_not_mem w.first_digits)))
    (dropCommas_groups w.groups_digits (comma_not_mem_tail w.frac_digits))

/-- An amount that is written with few enough places is read. -/
theorem parse_text {s : JsString} {w : Written} {decimals : Nat} (hs : trim s = w.text)
    (hplaces : w.places.length ≤ decimals) :
    ∃ v : Nat, parseStsh s decimals = .ok v ∧ (v : ℚ) = 10 ^ decimals * w.number := by
  have hdrop : dropCommas (trim s) = w.whole ++ Written.tail w.frac := by rw [hs, dropCommas_text]
  exact ⟨_, parse_amount w.amount hdrop hplaces, scaled hplaces⟩

/-! ### Commas -/

/-- A character that is not in the first part of a text stands in the second. -/
theorem split_past {a b before after : JsString} {c : UInt16} (hc : c ∉ a)
    (h : a ++ b = before ++ c :: after) : ∃ rest, before = a ++ rest ∧ b = rest ++ c :: after := by
  induction a generalizing before with
  | nil => exact ⟨before, rfl, h⟩
  | cons d a ih =>
    cases before with
    | nil => exact absurd (List.cons.inj h).1.symm (fun heq => hc (heq ▸ List.mem_cons_self))
    | cons e before =>
      obtain ⟨rfl, htail⟩ := List.cons.inj h
      obtain ⟨rest, hbefore, hb⟩ := ih (fun hmem => hc (List.mem_cons_of_mem _ hmem)) htail
      exact ⟨rest, congrArg (d :: ·) hbefore, hb⟩

theorem following_head (groups : List JsString) (frac : Option JsString) :
    Written.following groups frac = [] ∨ (Written.following groups frac).head? = some comma ∨
      (Written.following groups frac).head? = some point := by
  cases groups with
  | cons g groups => exact .inr (.inl rfl)
  | nil =>
    cases frac with
    | none => exact .inl rfl
    | some f => exact .inr (.inr rfl)

/-- The commas of the groups are where they should be. -/
theorem following_separates {groups : List JsString} {frac : Option JsString}
    (hgroups : ∀ g ∈ groups, IsGroup g)
    (hfrac : ∀ f ∈ frac, f ≠ [] ∧ ∀ c ∈ f, isDigit c) {before after : JsString}
    (h : Written.following groups frac = before ++ comma :: after) :
    point ∉ before ∧ ThreeDigits after := by
  induction groups generalizing before with
  | nil =>
    have hmem : comma ∈ Written.tail frac := by
      rw [show Written.tail frac = before ++ comma :: after from h]
      exact List.mem_append_right _ List.mem_cons_self
    exact absurd hmem (comma_not_mem_tail hfrac)
  | cons g groups ih =>
    have hdigits := (hgroups g List.mem_cons_self).2
    have hcons : comma :: (g ++ Written.following groups frac) = before ++ comma :: after := by
      rw [← h, Written.following, Written.following, List.flatMap_cons, List.append_assoc]
      rfl
    cases before with
    | nil =>
      refine ⟨List.not_mem_nil, g, _, (List.cons.inj hcons).2.symm, hgroups g List.mem_cons_self, ?_⟩
      exact following_head groups frac
    | cons c before =>
      obtain ⟨rfl, htail⟩ := List.cons.inj hcons
      obtain ⟨rest, rfl, hrest⟩ := split_past (comma_not_mem hdigits) htail
      obtain ⟨hpoint, hthree⟩ := ih (fun g hg => hgroups g (List.mem_cons_of_mem _ hg)) hrest
      refine ⟨fun hmem => ?_, hthree⟩
      rcases List.mem_cons.1 hmem with heq | hmem
      · exact absurd heq (by decide)
      · exact (List.mem_append.1 hmem).elim (point_not_mem hdigits) hpoint

theorem text_separates (w : Written) : Separates w.text := by
  intro before after h
  obtain ⟨rest, rfl, hrest⟩ := split_past (comma_not_mem w.first_digits) h
  obtain ⟨hpoint, hthree⟩ := following_separates w.groups_digits w.frac_digits hrest
  refine ⟨List.append_ne_nil_of_left_ne_nil w.first_ne _, fun hmem => ?_, hthree⟩
  exact (List.mem_append.1 hmem).elim (point_not_mem w.first_digits) hpoint

/-- Where the commas are where they should be, what follows the first digits is groups and then
something without a comma. -/
theorem groups_of_separates {u : JsString}
    (hhead : u = [] ∨ u.head? = some comma ∨ u.head? = some point)
    (hcommas : ∀ before after, u = before ++ comma :: after → point ∉ before ∧ ThreeDigits after) :
    ∃ (groups : List JsString) (t : JsString), u = groups.flatMap (comma :: ·) ++ t ∧
      (∀ g ∈ groups, IsGroup g) ∧ comma ∉ t ∧
      ∀ c ∈ t.head?, isDigit c = false := by
  -- the rest behind a group is shorter than the text that the group's comma starts
  induction hn : u.length using Nat.strong_induction_on generalizing u with
  | _ n ih =>
    cases u with
    | nil => exact ⟨[], [], rfl, (fun g hg => nomatch hg), List.not_mem_nil, fun c hc => nomatch hc⟩
    | cons c u =>
      rcases hhead with hnil | hcomma | hpoint
      · exact nomatch hnil
      · cases hcomma
        obtain ⟨-, g, rest, rfl, hgroup, hrest⟩ := hcommas [] u rfl
        obtain ⟨groups, t, rfl, hgroups, ht, hstop⟩ := ih rest.length
          (by rw [List.length_cons, List.length_append] at hn; omega) hrest (fun before after heq => by
            obtain ⟨hbefore, hafter⟩ := hcommas (comma :: (g ++ before)) after
              (by rw [heq, List.cons_append, List.append_assoc])
            refine ⟨fun hmem => hbefore (List.mem_cons_of_mem _ (List.mem_append_right _ hmem)), hafter⟩) rfl
        refine ⟨g :: groups, t, ?_, List.forall_mem_cons.2 ⟨hgroup, hgroups⟩, ht, hstop⟩
        rw [List.flatMap_cons, List.append_assoc]
        rfl
      · cases hpoint
        refine ⟨[], point :: u, rfl, (fun g hg => nomatch hg), fun hmem => ?_, fun c hc => ?_⟩
        · rcases List.mem_cons.1 hmem with heq | hmem
          · exact absurd heq (by decide)
          · obtain ⟨before, after, rfl⟩ := List.append_of_mem hmem
            exact (hcommas (point :: before) after rfl).1 List.mem_cons_self
        · rw [← Option.some.inj hc]
          exact point_digit

/-- An amount whose commas all separate thousands is one that is written. -/
theorem written_of_separates {s whole : JsString} {frac : Option JsString} (h : Amount whole frac)
    (hs : dropCommas s = whole ++ Written.tail frac) (hcommas : Separates s) :
    ∃ w : Written, s = w.text ∧ w.whole = whole ∧ w.frac = frac := by
  obtain ⟨hwhole, htail⟩ := span_digits h.whole_digits (tail_stops frac)
  have hfirst : ∀ c ∈ s.takeWhile isDigit, isDigit c := fun c hc => List.mem_takeWhile_imp hc
  have hsplit : s = s.takeWhile isDigit ++ s.dropWhile isDigit :=
    List.takeWhile_append_dropWhile.symm
  generalize s.takeWhile isDigit = first at hfirst hsplit
  have hstop : ∀ c ∈ (s.dropWhile isDigit).head?, isDigit c = false := by
    intro c hc
    have hhead := List.head?_dropWhile_not isDigit s
    rw [hc] at hhead
    exact hhead
  generalize s.dropWhile isDigit = u at hstop hsplit
  subst hsplit
  have hdrop : dropCommas (first ++ u) = first ++ dropCommas u := by
    rw [dropCommas, List.filter_append]
    exact congrArg (· ++ _) (dropCommas_self (comma_not_mem hfirst))
  rw [hdrop] at hs
  -- what is left of the text after its first digits starts with a comma or the point
  have hhead : u = [] ∨ u.head? = some comma ∨ u.head? = some point := by
    cases u with
    | nil => exact .inl rfl
    | cons c u =>
      by_cases hc : c = comma
      · exact .inr (.inl (congrArg some hc))
      · have hcons : dropCommas (c :: u) = c :: dropCommas u :=
          List.filter_cons_of_pos (bne_iff_ne.2 hc)
        obtain ⟨-, hrest⟩ := span_digits (u := c :: dropCommas u) hfirst hstop
        rw [hcons] at hs
        rw [hs, htail] at hrest
        cases frac with
        | none => exact nomatch hrest
        | some f => exact .inr (.inr (congrArg some (List.cons.inj hrest).1.symm))
  obtain ⟨groups, t, rfl, hgroups, ht, htstop⟩ := groups_of_separates hhead fun before after heq => by
    obtain ⟨-, hbefore, hafter⟩ := hcommas (first ++ before) after (by rw [heq, List.append_assoc])
    exact ⟨fun hmem => hbefore (List.mem_append_right _ hmem), hafter⟩
  rw [dropCommas_groups hgroups ht, ← List.append_assoc] at hs
  have hdigits : ∀ c ∈ first ++ groups.flatten, isDigit c := fun c hc =>
    (List.mem_append.1 hc).elim (hfirst c) (Written.groups_flat hgroups c)
  obtain ⟨hleft, hright⟩ := span_digits hdigits htstop
  rw [hs, hwhole] at hleft
  rw [hs, htail] at hright
  have hne : first ≠ [] := by
    rintro rfl
    cases groups with
    | nil => exact h.whole_ne hleft
    | cons g groups => exact (hcommas [] _ rfl).1 rfl
  refine ⟨⟨first, groups, frac, hne, hfirst, hgroups, h.frac_digits⟩, ?_, hleft.symm, rfl⟩
  rw [Written.text, Written.following, hright]

/-! ### Amounts as they are shown -/

theorem length_flatten_groups {groups : List JsString} (h : ∀ g ∈ groups, g.length = 3) :
    groups.flatten.length = 3 * groups.length := by
  induction groups with
  | nil => rfl
  | cons g groups ih =>
    rw [List.flatten_cons, List.length_append, h g List.mem_cons_self, List.length_cons,
      ih fun g hg => h g (List.mem_cons_of_mem _ hg), Nat.mul_succ, Nat.add_comm]

/-- Separators leave the digits as they are, in groups of three. -/
theorem grouped {digits : JsString} (hne : digits ≠ []) :
    ∃ (first : JsString) (groups : List JsString),
      groupThousands digits = first ++ groups.flatMap (comma :: ·) ∧ first ++ groups.flatten = digits ∧
        first ≠ [] ∧ first.length ≤ 3 ∧ ∀ g ∈ groups, g.length = 3 := by
  induction digits with
  | nil => exact absurd rfl hne
  | cons c rest ih =>
    by_cases hrest : rest = []
    · subst hrest
      exact ⟨[c], [], rfl, rfl, List.cons_ne_nil _ _, Nat.le_add_left 1 2, fun g hg => nomatch hg⟩
    · obtain ⟨first, groups, hgroup, hflat, hfirst, hle, hgroups⟩ := ih hrest
      have hlength : rest.length = first.length + 3 * groups.length := by
        rw [← hflat, List.length_append, length_flatten_groups hgroups]
      have hpos : 0 < first.length := List.length_pos_of_ne_nil hfirst
      by_cases hthree : rest.length % 3 = 0
      · refine ⟨[c], first :: groups, ?_, ?_, List.cons_ne_nil _ _, Nat.le_add_left 1 2, ?_⟩
        · rw [groupThousands, if_pos ⟨hrest, hthree⟩, hgroup]
          rfl
        · rw [List.flatten_cons, hflat]
          rfl
        · exact List.forall_mem_cons.2 ⟨by omega, hgroups⟩
      · refine ⟨c :: first, groups, ?_, congrArg (c :: ·) hflat, List.cons_ne_nil _ _, ?_, hgroups⟩
        · rw [groupThousands, if_neg (fun h => hthree h.2), hgroup]
          rfl
        · rw [List.length_cons]
          omega

/-- The digits of a fraction without its last zeros are the fraction when they are filled up again. -/
theorem fraction_digits {frac decimals : Nat} (hpos : frac ≠ 0) (hlt : frac < 10 ^ decimals) :
    ∃ f : JsString, ((decimal frac).leftpad decimals zero).rdropWhile (· == zero) = f ∧ f ≠ [] ∧
      (∀ c ∈ f, isDigit c) ∧ f.length ≤ decimals ∧
      numeral (f.rightpad decimals zero) = frac := by
  have hd : 0 < decimals := by
    refine Nat.pos_of_ne_zero fun h0 => hpos ?_
    rw [h0, Nat.pow_zero] at hlt
    omega
  have hle : (decimal frac).length ≤ decimals := by
    rw [decimal_length]
    exact (Nat.length_toDigits_le_iff (by decide) hd).2 hlt
  generalize hp : (decimal frac).leftpad decimals zero = padded
  have hlength : padded.length = decimals := by
    rw [← hp, List.length_leftpad, Nat.max_eq_left hle]
  have hdigits : ∀ c ∈ padded, isDigit c := by
    rw [← hp, List.leftpad]
    intro c hc
    rcases List.mem_append.1 hc with hzero | hdecimal
    · rw [List.eq_of_mem_replicate hzero]
      decide
    · exact decimal_digits frac c hdecimal
  have hvalue : numeral padded = frac := by
    rw [← hp, List.leftpad, numeral_append, numeral_decimal]
    exact (congrArg (· * _ + frac) (numeral_zeros _)).trans (by rw [Nat.zero_mul, Nat.zero_add])
  have hsplit : padded = padded.rdropWhile (· == zero) ++ padded.rtakeWhile (· == zero) :=
    List.rdropWhile_append_rtakeWhile.symm
  have hzeros : padded.rtakeWhile (· == zero) =
      List.replicate (padded.rtakeWhile (· == zero)).length zero :=
    List.eq_replicate_of_mem fun c hc => beq_iff_eq.1 (List.mem_rtakeWhile_imp (p := (· == zero)) hc)
  generalize padded.rdropWhile (· == zero) = f at hsplit
  have hpad : f.rightpad decimals zero = padded := by
    have hsum := congrArg List.length hsplit
    rw [List.length_append, hlength] at hsum
    rw [List.rightpad, show decimals - f.length = (padded.rtakeWhile (· == zero)).length by omega,
      ← hzeros, ← hsplit]
  have hsub : f.length ≤ decimals := by
    have hsum := congrArg List.length hsplit
    rw [List.length_append, hlength] at hsum
    omega
  refine ⟨f, rfl, fun hnil => hpos ?_, fun c hc => hdigits c ?_, hsub, by rw [hpad, hvalue]⟩
  · rw [← hvalue, ← hpad, hnil]
    exact numeral_zeros _
  · rw [hsplit]
    exact List.mem_append_left _ hc

theorem decimal_whole (n : Nat) : ∃ (first : JsString) (groups : List JsString),
    groupThousands (decimal n) = first ++ groups.flatMap (comma :: ·) ∧
      first ++ groups.flatten = decimal n ∧ first ≠ [] ∧ (∀ c ∈ first, isDigit c) ∧
      ∀ g ∈ groups, IsGroup g := by
  obtain ⟨first, groups, hgroup, hflat, hne, -, hlength⟩ := grouped (decimal_ne_nil n)
  have hdigits := decimal_digits n
  rw [← hflat] at hdigits
  exact ⟨first, groups, hgroup, hflat, hne, fun c hc => hdigits c (List.mem_append_left _ hc),
    fun g hg => ⟨hlength g hg, fun c hc =>
      hdigits c (List.mem_append_right _ (List.mem_flatten_of_mem hg hc))⟩⟩

/-- What is shown is an amount as one writes it. -/
theorem formatUnits_written (n decimals : Nat) : ∃ w : Written, formatUnits n decimals = w.text ∧
    w.places.length ≤ decimals ∧
      numeral w.whole * 10 ^ decimals + numeral (w.places.rightpad decimals zero) = n := by
  obtain ⟨first, groups, hgroup, hflat, hne, hfirst, hgroups⟩ := decimal_whole (n / 10 ^ decimals)
  have hdiv := Nat.div_add_mod' n (10 ^ decimals)
  by_cases hfrac : n % 10 ^ decimals = 0
  · refine ⟨⟨first, groups, none, hne, hfirst, hgroups, fun f hf => nomatch hf⟩, ?_, Nat.zero_le _, ?_⟩
    · simp only [formatUnits, if_pos hfrac, hgroup]
      rw [Written.text, Written.following, Written.tail, Option.elim_none, List.append_nil]
    · show numeral (first ++ groups.flatten) * _ + numeral (List.replicate _ zero) = n
      rw [hflat, numeral_decimal, zero, numeral_zeros]
      omega
  · have hlt := Nat.mod_lt n (Nat.pow_pos (n := decimals) (show 0 < 10 by decide))
    obtain ⟨f, hf, hfne, hdigits, hle, hvalue⟩ := fraction_digits hfrac hlt
    refine ⟨⟨first, groups, some f, hne, hfirst, hgroups, fun f' hf' => ?_⟩, ?_, hle, ?_⟩
    · cases hf'
      exact ⟨hfne, hdigits⟩
    · simp only [formatUnits, if_neg hfrac, hgroup, hf]
      rw [Written.text, Written.following, Written.tail, Option.elim_some, List.append_assoc,
        List.append_assoc]
      rfl
    · show numeral (first ++ groups.flatten) * _ + numeral (f.rightpad decimals zero) = n
      rw [hflat, numeral_decimal, hvalue]
      exact hdiv

theorem text_chars (w : Written) : ∀ c ∈ w.text, isDigit c ∨ c = comma ∨ c = point := by
  intro c hc
  rcases List.mem_append.1 hc with hfirst | hc
  · exact .inl (w.first_digits c hfirst)
  rcases List.mem_append.1 hc with hgroup | htail
  · obtain ⟨g, hg, hmem⟩ := List.mem_flatMap.1 hgroup
    rcases List.mem_cons.1 hmem with rfl | hmem
    · exact .inr (.inl rfl)
    · exact .inl ((w.groups_digits g hg).2 c hmem)
  · cases hfrac : w.frac with
    | none =>
      rw [hfrac] at htail
      exact nomatch htail
    | some f =>
      rw [hfrac] at htail
      rcases List.mem_cons.1 htail with rfl | hmem
      · exact .inr (.inr rfl)
      · exact .inl ((w.frac_digits f hfrac).2 c hmem)

/-- There is nothing to take off an amount. -/
theorem trim_text (w : Written) : trim w.text = w.text := by
  have hspace : ∀ c ∈ w.text, isSpace c = false := by
    intro c hc
    rcases text_chars w c hc with hdigit | rfl | rfl
    · exact digit_not_space hdigit
    · decide
    · decide
  exact trim_self hspace

theorem parse_formatUnits (n decimals : Nat) : parseStsh (formatUnits n decimals) decimals = .ok n := by
  obtain ⟨w, htext, hplaces, hvalue⟩ := formatUnits_written n decimals
  rw [htext]
  exact (parse_amount w.amount (by rw [trim_text, dropCommas_text]) hplaces).trans (congrArg _ hvalue)

theorem minus_not_mem (n decimals : Nat) : minus ∉ formatUnits n decimals := by
  obtain ⟨w, htext, -, -⟩ := formatUnits_written n decimals
  rw [htext]
  intro hmem
  rcases text_chars w _ hmem with hdigit | heq | heq
  · exact absurd hdigit (by decide)
  · exact absurd heq (by decide)
  · exact absurd heq (by decide)

theorem formatUnits_inj {m n decimals : Nat} (h : formatUnits m decimals = formatUnits n decimals) :
    m = n := by
  have hm := parse_formatUnits m decimals
  rw [h, parse_formatUnits] at hm
  exact (Except.ok.inj hm).symm

theorem parse_format (n decimals : Nat) : parseStsh (formatStsh n decimals) decimals = .ok n := by
  rw [formatStsh, if_neg (by omega), Int.toNat_natCast]
  exact parse_formatUnits n decimals

theorem formatStsh_inj {x y : Int} {decimals : Nat} (h : formatStsh x decimals = formatStsh y decimals) :
    x = y := by
  unfold formatStsh at h
  split at h <;> split at h
  · have := formatUnits_inj (List.cons.inj h).2
    omega
  · refine absurd ?_ (minus_not_mem y.toNat decimals)
    rw [← h]
    exact List.mem_cons_self
  · refine absurd ?_ (minus_not_mem x.toNat decimals)
    rw [h]
    exact List.mem_cons_self
  · have := formatUnits_inj h
    omega

/-- What is read is what was written, exactly when a comma that does not separate thousands stands in
no amount: amounts are read back as they are shown, and no two are shown alike. -/
theorem amounts_read_as_written (decimals : Nat) :
    (∀ x : Nat, parseStsh (formatStsh x decimals) decimals = .ok x) ∧
      Function.Injective (formatStsh · decimals) ∧
      ∀ s, ReadAsWritten s decimals ↔ (AmountWithin (trim s) decimals → Separates (trim s)) := by
  refine ⟨fun x => parse_format x decimals, fun x y h => formatStsh_inj h, fun s => ⟨?_, ?_⟩⟩
  · intro hread hamount
    obtain ⟨v, hv⟩ := amountWithin_iff.1 hamount
    obtain ⟨w, htext, -, -⟩ := hread v hv
    rw [htext]
    exact text_separates w
  · intro hcommas v hv
    have hseparates := hcommas (amountWithin_iff.2 ⟨v, hv⟩)
    obtain ⟨whole, frac, hs, hamount, hplaces⟩ := amount_of_parse hv
    obtain ⟨w, htext, rfl, rfl⟩ := written_of_separates hamount hs hseparates
    obtain ⟨v', hv', hnumber⟩ := parse_text htext hplaces
    rw [hv] at hv'
    cases hv'
    exact ⟨w, htext, hplaces, hnumber⟩

/-- Fifteen tokens are read where one and a half are written with a comma. -/
theorem decimal_comma_coerced : parseStsh (literal "1,5") stshDecimals = .ok 1500000000 ∧
    ¬ReadAsWritten (literal "1,5") stshDecimals := by
  have hread : parseStsh (literal "1,5") stshDecimals = .ok 1500000000 := by decide +kernel
  refine ⟨hread, fun h => ?_⟩
  obtain ⟨w, htext, -, -⟩ := h _ hread
  have hseparates := text_separates w
  rw [← htext] at hseparates
  obtain ⟨-, -, g, rest, hafter, ⟨hlength, -⟩, -⟩ := hseparates [49] [53] (by decide +kernel)
  have hsum := congrArg List.length hafter
  rw [List.length_append, hlength] at hsum
  exact absurd hsum (by rw [List.length_singleton]; omega)

end StshProtocol.Wallet.TokenFormat
