/-!
# Tables

A table has rows that are as long as each other. It is cut from a list of entries, row by row, and
it can be turned over, so that its columns become its rows.
-/

namespace ChipEight

structure Table (α : Type) (height width : Nat) where
  rows : List (List α)
  length_rows : rows.length = height
  length_of_mem : ∀ row ∈ rows, row.length = width

namespace Table

variable {α : Type} {height width : Nat}

/-- The entry in a row and a column. -/
def cell? (t : Table α height width) (y x : Nat) : Option α := t.rows[y]?.bind (·[x]?)

/-- Whatever is in a row is in some column of it. -/
theorem exists_cell_of_mem (t : Table α height width) {row : List α} {a : α} (hrow : row ∈ t.rows)
    (ha : a ∈ row) : ∃ y < height, ∃ x < width, t.cell? y x = some a := by
  obtain ⟨y, hy, rfl⟩ := List.mem_iff_getElem.1 hrow
  obtain ⟨x, hx, rfl⟩ := List.mem_iff_getElem.1 ha
  refine ⟨y, t.length_rows ▸ hy, x, t.length_of_mem _ hrow ▸ hx, ?_⟩
  rw [cell?, List.getElem?_eq_getElem hy, Option.bind_some, List.getElem?_eq_getElem hx]

/-! ## Cutting a list into rows -/

/-- The first so many pieces of a list, all as long as each other. -/
def pieces (width : Nat) : Nat → List α → List (List α)
  | 0, _ => []
  | n + 1, entries => entries.take width :: pieces width n (entries.drop width)

theorem length_pieces (width n : Nat) (entries : List α) :
    (pieces width n entries).length = n := by
  induction n generalizing entries with
  | zero => rfl
  | succ n ih => simp [pieces, ih]

theorem length_of_mem_pieces {n : Nat} {entries : List α} (h : entries.length = n * width) :
    ∀ piece ∈ pieces width n entries, piece.length = width := by
  induction n generalizing entries with
  | zero => simp [pieces]
  | succ n ih =>
    rw [Nat.succ_mul] at h
    refine List.forall_mem_cons.2 ⟨by rw [List.length_take]; omega, ih ?_⟩
    rw [List.length_drop, h, Nat.add_sub_cancel]

/-- A piece begins behind all those before it. -/
theorem getElem?_pieces {n y : Nat} (hy : y < n) (entries : List α) :
    (pieces width n entries)[y]? = some ((entries.drop (y * width)).take width) := by
  induction n generalizing entries y with
  | zero => exact absurd hy (Nat.not_lt_zero y)
  | succ n ih =>
    cases y with
    | zero => simp [pieces]
    | succ y =>
      rw [pieces, List.getElem?_cons_succ, ih (Nat.lt_of_succ_lt_succ hy), List.drop_drop,
        Nat.succ_mul, Nat.add_comm width]

/-- The entries of a list, row by row. -/
def ofEntries (height width : Nat) (entries : List α) (h : entries.length = height * width) :
    Table α height width where
  rows := pieces width height entries
  length_rows := length_pieces width height entries
  length_of_mem := length_of_mem_pieces h

theorem cell?_ofEntries {entries : List α} (h : entries.length = height * width) {x y : Nat}
    (hx : x < width) (hy : y < height) :
    (ofEntries height width entries h).cell? y x = entries[x + y * width]? := by
  rw [cell?, ofEntries, getElem?_pieces hy, Option.bind_some, List.getElem?_take_of_lt hx,
    List.getElem?_drop, Nat.add_comm]

/-! ## Columns and rows exchanged -/

/-- The columns of rows that are so many entries long: the first row gives every column its first
entry. -/
def columnsOf (width : Nat) : List (List α) → List (List α)
  | [] => List.replicate width []
  | row :: rows => List.zipWith List.cons row (columnsOf width rows)

theorem length_columnsOf {rows : List (List α)} (h : ∀ row ∈ rows, row.length = width) :
    (columnsOf width rows).length = width := by
  induction rows with
  | nil => exact List.length_replicate
  | cons row rows ih =>
    obtain ⟨hrow, hrows⟩ := List.forall_mem_cons.1 h
    rw [columnsOf, List.length_zipWith, hrow, ih hrows, Nat.min_self]

theorem length_of_mem_columnsOf (rows : List (List α)) :
    ∀ column ∈ columnsOf width rows, column.length = rows.length := by
  induction rows with
  | nil =>
    intro column hcolumn
    rw [(List.mem_replicate.1 hcolumn).2]
    rfl
  | cons row rows ih =>
    intro column hcolumn
    obtain ⟨x, hx, rfl⟩ := List.mem_iff_getElem.1 hcolumn
    rw [columnsOf, List.length_zipWith] at hx
    simp [columnsOf, ih _ (List.getElem_mem (Nat.lt_of_lt_of_le hx (Nat.min_le_right ..)))]

/-- A column and a row lead to the same entry, whichever of them comes first, or to none. -/
theorem getElem?_columnsOf {rows : List (List α)} (h : ∀ row ∈ rows, row.length = width)
    (x y : Nat) :
    (columnsOf width rows)[x]?.bind (·[y]?) = rows[y]?.bind (·[x]?) := by
  induction rows generalizing y with
  | nil =>
    cases hx : (columnsOf width ([] : List (List α)))[x]? with
    | none => rfl
    | some column =>
      obtain ⟨-, rfl⟩ := List.mem_replicate.1 (List.mem_of_getElem? hx)
      rfl
  | cons row rows ih =>
    obtain ⟨hrow, hrows⟩ := List.forall_mem_cons.1 h
    have hlength := length_columnsOf hrows
    have hrest := ih hrows
    rw [columnsOf, List.getElem?_zipWith]
    by_cases hx : x < width
    · have hcolumn := List.getElem?_eq_getElem (hlength ▸ hx)
      have hentry := List.getElem?_eq_getElem (hrow ▸ hx)
      rw [hcolumn] at hrest
      rw [hcolumn, hentry]
      cases y with
      | zero => exact hentry.symm
      | succ y => exact hrest y
    · have hcolumn : (columnsOf width rows)[x]? = none := List.getElem?_eq_none (by omega)
      have hentry : row[x]? = none := List.getElem?_eq_none (by omega)
      rw [hcolumn] at hrest
      rw [hcolumn, hentry]
      cases y with
      | zero => exact hentry.symm
      | succ y => exact hrest y

/-- The table with its columns as rows. -/
def transpose (t : Table α height width) : Table α width height where
  rows := columnsOf width t.rows
  length_rows := length_columnsOf t.length_of_mem
  length_of_mem column hcolumn := by
    rw [length_of_mem_columnsOf t.rows column hcolumn, t.length_rows]

theorem cell?_transpose (t : Table α height width) (x y : Nat) :
    t.transpose.cell? x y = t.cell? y x :=
  getElem?_columnsOf t.length_of_mem x y

end Table

end ChipEight
