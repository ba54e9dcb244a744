import StshProtocol.Foundation.Except

/-! Reading an ordered collection page by page.

A page examines the rows after a cursor in their order, and ends when it is full, when it has
examined as many rows as its budget allows, or when there are no more; its cursor is the last row it
examined, whether or not that row was an item. A walk asks for the page after the cursor it was given
last. Between two pages what is behind the cursor may change in any way (`walk_ends`): the walk is
the items of the rows there were after its first cursor, each once, and it ends, because every page
that gives a cursor has examined a row. A row that cannot be read fails the page that comes to it,
and so the walk (`walk_fails`). -/
namespace StshProtocol.Foundation.Paging

variable {κ ν ι ε σ γ : Type}

/-- One page: the items of the rows, and the key to go on after if there are more rows. `last` is the
row examined before these, and `scanned` how many there were. -/
def readPage (limit : Nat) (budget : Option Nat) (item : ν → Except ε (Option ι)) :
    List (κ × ν) → List ι → Nat → κ → Except ε (List ι × Option κ)
  | [], items, _, _ => .ok (items, none)
  | (key, row) :: rows, items, scanned, last =>
    if items.length = limit ∨ budget = some scanned then
      .ok (items, some last)
    else
      match item row with
      | .error e => .error e
      | .ok none => readPage limit budget item rows items (scanned + 1) key
      | .ok (some i) => readPage limit budget item rows (items ++ [i]) (scanned + 1) key

/-- The item of a row that can be read. -/
def got (item : ν → Except ε (Option ι)) (row : κ × ν) : Option ι :=
  match item row.2 with
  | .ok i => i
  | .error _ => none

/-- The row can be read, as an item or as one to skip. -/
def Reads (item : ν → Except ε (Option ι)) (row : κ × ν) : Prop := ∃ i, item row.2 = .ok i

section Page
variable {limit scanned : Nat} {budget : Option Nat} {item : ν → Except ε (Option ι)}
  {rows : List (κ × ν)} {items : List ι} {last : κ} {row : κ × ν}

theorem got_of_ok {i : Option ι} (h : item row.2 = .ok i) : got item row = i := by
  rw [got, h]

/-- What a page is: the items of some first rows, and the key of the last of them unless they are
all. -/
structure Page (item : ν → Except ε (Option ι)) (rows : List (κ × ν)) (items : List ι) (last : κ)
    (front rest : List (κ × ν)) (page : List ι × Option κ) : Prop where
  split : rows = front ++ rest
  items : page.1 = items ++ front.filterMap (got item)
  reads : ∀ row ∈ front, Reads item row
  done : rest = [] → page.2 = none
  more : rest ≠ [] → page.2 = some ((front.getLast?.map Prod.fst).getD last)

theorem Page.cons {key : κ} {v : ν} {i : Option ι} {front rest : List (κ × ν)}
    {page : List ι × Option κ} (hi : item v = .ok i)
    (p : Page item rows (items ++ i.toList) key front rest page) :
    Page item ((key, v) :: rows) items last ((key, v) :: front) rest page where
  split := by rw [List.cons_append, p.split]
  items := by
    rw [p.items, List.append_assoc]
    congr 1
    cases i with
    | none => rw [List.filterMap_cons_none (got_of_ok hi)]; rfl
    | some i => rw [List.filterMap_cons_some (got_of_ok hi)]; rfl
  reads row hrow := by
    rcases List.mem_cons.1 hrow with rfl | hrow
    · exact ⟨i, hi⟩
    · exact p.reads row hrow
  done := p.done
  more h := by
    rw [p.more h]
    cases front with
    | nil => rfl
    | cons e front => rw [List.getLast?_cons_cons, List.getLast?_cons]; rfl

/-- A page that is given is of rows that can be read. It examines a row unless it was full to begin
with. -/
theorem readPage_of_ok {page : List ι × Option κ}
    (h : readPage limit budget item rows items scanned last = .ok page) :
    ∃ front rest, Page item rows items last front rest page ∧
      (items.length ≠ limit → budget ≠ some scanned → rows ≠ [] → front ≠ []) := by
  induction rows generalizing items scanned last with
  | nil =>
    cases h
    exact ⟨[], [], ⟨rfl, (List.append_nil _).symm, nofun, fun _ => rfl, fun h => absurd rfl h⟩,
      fun _ _ h => absurd rfl h⟩
  | cons row rows ih =>
    obtain ⟨key, v⟩ := row
    rw [readPage] at h
    by_cases hfull : items.length = limit ∨ budget = some scanned
    · rw [if_pos hfull] at h
      cases h
      refine ⟨[], (key, v) :: rows, ⟨rfl, (List.append_nil _).symm, nofun, nofun, fun _ => rfl⟩,
        fun hlimit hbudget => ?_⟩
      exact (hfull.elim hlimit hbudget).elim
    · rw [if_neg hfull] at h
      have hrest : ∀ i, item v = .ok i →
          readPage limit budget item rows (items ++ i.toList) (scanned + 1) key = .ok page := by
        intro i hi
        cases i with
        | none =>
          simp only [hi] at h
          rw [← h, Option.toList, List.append_nil]
        | some i =>
          simp only [hi] at h
          exact h
      cases hi : item v with
      | error e =>
        simp only [hi] at h
        exact nomatch h
      | ok i =>
        obtain ⟨front, rest, p, -⟩ := ih (hrest i hi)
        exact ⟨(key, v) :: front, rest, p.cons hi, fun _ _ _ => List.cons_ne_nil _ _⟩

/-- A page that is not given comes to a row that cannot be read. -/
theorem readPage_error {e : ε} (h : readPage limit budget item rows items scanned last = .error e) :
    ∃ row ∈ rows, item row.2 = .error e := by
  induction rows generalizing items scanned last with
  | nil => exact nomatch h
  | cons row rows ih =>
    obtain ⟨key, v⟩ := row
    have hrest : ∀ {items : List ι}, readPage limit budget item rows items (scanned + 1) key =
        .error e → ∃ row ∈ (key, v) :: rows, item row.2 = .error e := by
      intro items h
      obtain ⟨row, hrow, hitem⟩ := ih h
      exact ⟨row, List.mem_cons_of_mem _ hrow, hitem⟩
    rw [readPage] at h
    split at h
    · exact nomatch h
    · split at h
      · next hi => exact ⟨(key, v), List.mem_cons_self .., by rw [hi, Except.error.inj h]⟩
      · exact hrest h
      · exact hrest h

/-- Reading a row is a function of what the row reads as. -/
theorem readPage_map :
    readPage limit budget item rows items scanned last =
      readPage limit budget id (rows.map fun row => (row.1, item row.2)) items scanned last := by
  induction rows generalizing items scanned last with
  | nil => rfl
  | cons row rows ih =>
    obtain ⟨key, v⟩ := row
    rw [List.map_cons, readPage, readPage, id_eq]
    cases hi : item v with
    | error e => rfl
    | ok i => cases i <;> simp only [ih]

end Page

/-! ### Walks -/

/-- The pages one after another, from a cursor on. `meanwhile` is what becomes of the state between
one page and the next. It gives nothing if it does not end within its fuel. -/
def walk (page : σ → Option γ → Except ε (List ι × Option γ)) (meanwhile : Nat → σ → γ → σ) :
    Nat → Nat → σ → Option γ → Except ε (Option (List ι))
  | 0, _, _, _ => .ok none
  | fuel + 1, i, s, cursor =>
    match page s cursor with
    | .error e => .error e
    | .ok (items, none) => .ok (some items)
    | .ok (items, some c) =>
      (walk page meanwhile fuel (i + 1) (meanwhile i s c) (some c)).map (·.map (items ++ ·))

/-- A collection that is read by pages: its rows after a key, with what each reads as, and the
cursors that stand for the keys. -/
structure Paged (σ κ ι ε γ : Type) where
  limit : Nat
  budget : Option Nat
  start : κ
  cursor : κ → γ
  rows : σ → Option κ → List (κ × Except ε (Option ι))
  page : σ → Option γ → Except ε (List ι × Option γ)
  reads : ∀ s after, page s (after.map cursor) =
    (readPage limit budget id (rows s after) [] 0 start).map fun p => (p.1, p.2.map cursor)
  resume : ∀ {s after front key r rest}, rows s after = front ++ (key, r) :: rest →
    rows s (some key) = rest
  holds : limit ≠ 0
  allows : budget ≠ some 0

namespace Paged
variable (P : Paged σ κ ι ε γ) {meanwhile : Nat → σ → γ → σ} {s : σ} {after : Option κ} {key : κ}
  {items : List ι} {fuel i : Nat}

/-- Between two pages only what is behind the cursor changes. -/
def Behind (meanwhile : Nat → σ → γ → σ) : Prop :=
  ∀ i s key, P.rows (meanwhile i s (P.cursor key)) (some key) = P.rows s (some key)

/-- What a page gives: all the rows there are, or some of them and the key to go on after. -/
theorem page_ok {next : Option γ} (h : P.page s (after.map P.cursor) = .ok (items, next)) :
    ∃ front rest, P.rows s after = front ++ rest ∧ items = front.filterMap (got id) ∧
      (∀ row ∈ front, Reads id row) ∧ (next = none → rest = []) ∧
      ∀ c ∈ next, ∃ key, c = P.cursor key ∧ P.rows s (some key) = rest ∧ front ≠ [] := by
  rw [P.reads] at h
  obtain ⟨⟨items', next'⟩, hread, h⟩ := map_ok h
  obtain ⟨rfl, rfl⟩ := Prod.mk.inj h
  obtain ⟨front, rest, p, hne⟩ := readPage_of_ok hread
  refine ⟨front, rest, p.split, p.items, p.reads, fun hnone => ?_, fun c hc => ?_⟩
  · by_contra hrest
    rw [p.more hrest] at hnone
    exact nomatch hnone
  · have hrest : rest ≠ [] := by
      intro hrest
      rw [p.done hrest] at hc
      exact nomatch hc
    have hfront : front ≠ [] := by
      refine hne (fun h => P.holds h.symm) P.allows ?_
      rw [p.split]
      exact List.append_ne_nil_of_right_ne_nil _ hrest
    rw [p.more hrest] at hc
    refine ⟨_, (Option.some.inj hc).symm, ?_, hfront⟩
    obtain ⟨init, ⟨k, r⟩, rfl⟩ := List.eq_nil_or_concat front |>.resolve_left hfront
    rw [List.concat_eq_append, List.getLast?_concat]
    have hlast : P.rows s after = init ++ (k, r) :: rest := by
      rw [p.split, List.concat_eq_append, List.append_assoc]
      rfl
    exact P.resume hlast

theorem page_error {e : ε} (h : P.page s (after.map P.cursor) = .error e) :
    ∃ row ∈ P.rows s after, row.2 = .error e := by
  rw [P.reads] at h
  cases hread : readPage P.limit P.budget id (P.rows s after) [] 0 P.start with
  | error e' =>
    rw [hread] at h
    exact Except.error.inj h ▸ readPage_error hread
  | ok page =>
    rw [hread] at h
    exact nomatch h

/-- If all rows can be read the walk ends with the items of each. -/
theorem walk_ends (hkeep : P.Behind meanwhile) (hreads : ∀ row ∈ P.rows s after, Reads id row)
    (hfuel : (P.rows s after).length < fuel) :
    walk P.page meanwhile fuel i s (after.map P.cursor) =
      .ok (some ((P.rows s after).filterMap (got id))) := by
  induction fuel generalizing i s after with
  | zero => exact absurd hfuel (Nat.not_lt_zero _)
  | succ fuel ih =>
    rw [walk]
    cases hpage : P.page s (after.map P.cursor) with
    | error e =>
      obtain ⟨row, hrow, hbad⟩ := P.page_error hpage
      obtain ⟨i, hi⟩ := hreads row hrow
      exact nomatch hi.symm.trans hbad
    | ok page =>
      obtain ⟨items, next⟩ := page
      obtain ⟨front, rest, hsplit, rfl, -, hdone, hmore⟩ := P.page_ok hpage
      cases next with
      | none => simp only [hsplit, hdone rfl, List.append_nil]
      | some c =>
        obtain ⟨key, rfl, hrest, hfront⟩ := hmore c rfl
        have hrows : P.rows (meanwhile i s (P.cursor key)) (some key) = rest :=
          (hkeep i s key).trans hrest
        have hlen : rest.length < fuel := by
          have hpos := List.length_pos_iff.2 hfront
          rw [hsplit, List.length_append] at hfuel
          omega
        have hnext : walk P.page meanwhile fuel (i + 1) (meanwhile i s (P.cursor key))
            ((some key).map P.cursor) = .ok (some ((P.rows _ (some key)).filterMap (got id))) :=
          ih (fun row hrow => hreads row (hsplit ▸ List.mem_append_right _ (hrows ▸ hrow)))
            (hrows.symm ▸ hlen)
        rw [Option.map_some, hrows] at hnext
        simp only [hnext, hsplit, List.filterMap_append]
        rfl

/-- A row that cannot be read fails the walk, at the page that comes to it. -/
theorem walk_fails (hkeep : P.Behind meanwhile) (hbad : ∃ row ∈ P.rows s after, ¬Reads id row)
    (hfuel : (P.rows s after).length < fuel) :
    ∃ e, walk P.page meanwhile fuel i s (after.map P.cursor) = .error e ∧
      ∃ row ∈ P.rows s after, row.2 = .error e := by
  induction fuel generalizing i s after with
  | zero => exact absurd hfuel (Nat.not_lt_zero _)
  | succ fuel ih =>
    rw [walk]
    cases hpage : P.page s (after.map P.cursor) with
    | error e => exact ⟨e, rfl, P.page_error hpage⟩
    | ok page =>
      obtain ⟨items, next⟩ := page
      obtain ⟨front, rest, hsplit, rfl, hread, hdone, hmore⟩ := P.page_ok hpage
      obtain ⟨bad, hmem, hnot⟩ := hbad
      have hahead : bad ∈ rest := by
        rw [hsplit] at hmem
        exact (List.mem_append.1 hmem).resolve_left fun hfront => hnot (hread bad hfront)
      cases next with
      | none =>
        rw [hdone rfl] at hahead
        exact absurd hahead List.not_mem_nil
      | some c =>
        obtain ⟨key, rfl, hrest, hfront⟩ := hmore c rfl
        have hrows : P.rows (meanwhile i s (P.cursor key)) (some key) = rest :=
          (hkeep i s key).trans hrest
        have hlen : rest.length < fuel := by
          have hpos := List.length_pos_iff.2 hfront
          rw [hsplit, List.length_append] at hfuel
          omega
        obtain ⟨e, hwalk, row, hrow, he⟩ : ∃ e, walk P.page meanwhile fuel (i + 1)
            (meanwhile i s (P.cursor key)) ((some key).map P.cursor) = .error e ∧
              ∃ row ∈ P.rows _ (some key), row.2 = .error e :=
          ih ⟨bad, hrows.symm ▸ hahead, hnot⟩ (hrows.symm ▸ hlen)
        rw [Option.map_some] at hwalk
        refine ⟨e, ?_, row, ?_, he⟩
        · simp only [hwalk]
          rfl
        · rw [hsplit]
          exact List.mem_append_right _ (hrows ▸ hrow)

end Paged

end StshProtocol.Foundation.Paging
