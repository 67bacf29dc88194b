import LabelScheduler.Text.Csv

/-!
# Writing comma-separated values

Rows are written with every cell in double quotes and every quote in a cell doubled, whatever else stands in it. The end
of each row is one of the three that a reader takes, so that reading gives the same rows with the same cells.
-/

namespace LabelScheduler.Text.Csv

/-- How a row is ended. -/
inductive RowEnd where
  | lineFeed
  | carriageReturn
  | both
  deriving DecidableEq

/-- The characters that end the row. -/
def RowEnd.written : RowEnd → List Char
  | .lineFeed => ['\n']
  | .carriageReturn => ['\r']
  | .both => ['\r', '\n']

/-- Where a reader is after the end of the row. -/
def RowEnd.place : RowEnd → Place
  | .carriageReturn => .afterReturn
  | .lineFeed | .both => .rowStart

/-- The characters with every quote doubled. -/
def doubled (cs : List Char) : List Char := cs.flatMap fun c => if c = '"' then ['"', '"'] else [c]

/-- A cell in quotes. -/
def writtenCell (s : String) : List Char := '"' :: doubled s.toList ++ ['"']

/-- Cells with commas between them. -/
def writtenCells : List String → List Char
  | [] => []
  | [s] => writtenCell s
  | s :: t :: rest => writtenCell s ++ ',' :: writtenCells (t :: rest)

/-- Rows, each with its end. -/
def written (rows : List (List String × RowEnd)) : List Char :=
  rows.flatMap fun row => writtenCells row.1 ++ row.2.written

/-- A place where a quote opens a cell. -/
inductive Place.Opens : Place → Prop where
  | rowStart : Opens .rowStart
  | afterReturn : Opens .afterReturn
  | cellStart : Opens .cellStart

/-- A place where nothing of a row has been read. -/
inductive Place.Between : Place → Prop where
  | rowStart : Between .rowStart
  | afterReturn : Between .afterReturn

/-- A row can begin where nothing of it has been read. -/
theorem Place.Between.opens {place : Place} (h : place.Between) : place.Opens := by
  cases h with
  | rowStart => exact .rowStart
  | afterReturn => exact .afterReturn

/-- After the end of a row nothing of the next one has been read. -/
theorem RowEnd.between (e : RowEnd) : e.place.Between := by
  cases e with
  | carriageReturn => exact .afterReturn
  | lineFeed | both => exact .rowStart

variable {cut : Bool} {s : String} {cell : List Char} {cells : List String} {rows : List (List String)} {place : Place}

/-- Reading goes on after a character that is read. -/
theorem readFrom_cons {r r' : Reader} {c : Char} (h : r.step c = some r') (rest : List Char) :
    readFrom cut r (c :: rest) = readFrom cut r' rest := by
  rw [readFrom, h]

/-- A cell that is not full takes a character. -/
theorem push_eq_some (hroom : cell.length < cellLimit) (c : Char) :
    Reader.push ⟨place, cell, cell.length, cells, rows⟩ c .quoted =
      some ⟨.quoted, c :: cell, (c :: cell).length, cells, rows⟩ :=
  if_pos hroom

/-- Within quotes the doubled characters are read as those of the cell. -/
theorem readFrom_doubled {cs : List Char} (hroom : (cs.reverse ++ cell).length ≤ cellLimit) (rest : List Char) :
    readFrom cut ⟨.quoted, cell, cell.length, cells, rows⟩ (doubled cs ++ rest) =
      readFrom cut ⟨.quoted, cs.reverse ++ cell, (cs.reverse ++ cell).length, cells, rows⟩ rest := by
  induction cs generalizing cell with
  | nil => rfl
  | cons c cs ih =>
      rw [List.reverse_cons, List.append_assoc, List.singleton_append] at hroom ⊢
      have hfree : cell.length < cellLimit := by simp at hroom; omega
      rw [doubled, List.flatMap_cons, List.append_assoc]
      split
      case isTrue hquote =>
        subst hquote
        have hopen : Reader.step ⟨.quoted, cell, cell.length, cells, rows⟩ '"' =
            some ⟨.closing, cell, cell.length, cells, rows⟩ := rfl
        have hdouble : Reader.step ⟨.closing, cell, cell.length, cells, rows⟩ '"' =
            some ⟨.quoted, '"' :: cell, ('"' :: cell).length, cells, rows⟩ := push_eq_some hfree '"'
        rw [List.cons_append, readFrom_cons hopen]
        exact (readFrom_cons hdouble _).trans (ih hroom)
      case isFalse hplain =>
        have hstep : Reader.step ⟨.quoted, cell, cell.length, cells, rows⟩ c =
            some ⟨.quoted, c :: cell, (c :: cell).length, cells, rows⟩ :=
          (if_neg hplain).trans (push_eq_some hfree c)
        exact (readFrom_cons hstep _).trans (ih hroom)

/-- A written cell is read up to its closing quote. -/
theorem readFrom_writtenCell (hplace : place.Opens) (hroom : s.length ≤ cellLimit) (rest : List Char) :
    readFrom cut ⟨place, [], 0, cells, rows⟩ (writtenCell s ++ rest) =
      readFrom cut ⟨.closing, s.toList.reverse, s.toList.reverse.length, cells, rows⟩ rest := by
  have hopen : Reader.step ⟨place, [], 0, cells, rows⟩ '"' = some ⟨.quoted, [], 0, cells, rows⟩ := by
    cases hplace <;> rfl
  have hshort : (s.toList.reverse ++ []).length ≤ cellLimit := by
    rwa [List.append_nil, List.length_reverse, String.length_toList]
  have hclose : Reader.step ⟨.quoted, s.toList.reverse, s.toList.reverse.length, cells, rows⟩ '"' =
      some ⟨.closing, s.toList.reverse, s.toList.reverse.length, cells, rows⟩ := rfl
  calc readFrom cut ⟨place, [], 0, cells, rows⟩ (writtenCell s ++ rest)
      = readFrom cut ⟨.quoted, [], 0, cells, rows⟩ (doubled s.toList ++ '"' :: rest) := by
        rw [writtenCell, List.append_assoc, List.cons_append, readFrom_cons hopen, List.singleton_append]
    _ = readFrom cut ⟨.quoted, s.toList.reverse, s.toList.reverse.length, cells, rows⟩ ('"' :: rest) :=
        (readFrom_doubled hshort _).trans (by rw [List.append_nil])
    _ = readFrom cut ⟨.closing, s.toList.reverse, s.toList.reverse.length, cells, rows⟩ rest :=
        readFrom_cons hclose rest

/-- A comma after the closing quote ends the cell. -/
theorem readFrom_comma (size : Nat) (rest : List Char) :
    readFrom cut ⟨.closing, s.toList.reverse, size, cells, rows⟩ (',' :: rest) =
      readFrom cut ⟨.cellStart, [], 0, s :: cells, rows⟩ rest := by
  have hstep : Reader.step ⟨.closing, s.toList.reverse, size, cells, rows⟩ ',' =
      some ⟨.cellStart, [], 0, s :: cells, rows⟩ := by
    simp [Reader.step, Reader.unquoted, Reader.endCell]
  exact readFrom_cons hstep rest

/-- The end of a row after the closing quote ends the cell and the row. -/
theorem readFrom_rowEnd (e : RowEnd) (size : Nat) (rest : List Char) :
    readFrom cut ⟨.closing, s.toList.reverse, size, cells, rows⟩ (e.written ++ rest) =
      readFrom cut ⟨e.place, [], 0, [], (s :: cells).reverse :: rows⟩ rest := by
  have hstep {c : Char} (hc : c = '\n' ∨ c = '\r') :
      Reader.step ⟨.closing, s.toList.reverse, size, cells, rows⟩ c =
        some ⟨Reader.placeAfter c, [], 0, [], (s :: cells).reverse :: rows⟩ := by
    obtain rfl | rfl := hc <;> simp [Reader.step, Reader.unquoted, Reader.endCell, Reader.endRow]
  cases e with
  | lineFeed => exact readFrom_cons (hstep (.inl rfl)) rest
  | carriageReturn => exact readFrom_cons (hstep (.inr rfl)) rest
  | both =>
      -- The line feed belongs to the same end, so no row without cells is read for it.
      have hsecond : Reader.step ⟨.afterReturn, [], 0, [], (s :: cells).reverse :: rows⟩ '\n' =
          some ⟨.rowStart, [], 0, [], (s :: cells).reverse :: rows⟩ := rfl
      exact (readFrom_cons (hstep (.inr rfl)) _).trans (readFrom_cons hsecond rest)

/-- A written row is read as its cells. -/
theorem readFrom_writtenCells {more : List String} (hplace : place.Opens) (hmore : more ≠ [])
    (hroom : ∀ s ∈ more, s.length ≤ cellLimit) (e : RowEnd) (rest : List Char) :
    readFrom cut ⟨place, [], 0, cells, rows⟩ (writtenCells more ++ (e.written ++ rest)) =
      readFrom cut ⟨e.place, [], 0, [], (cells.reverse ++ more) :: rows⟩ rest := by
  induction more generalizing place cells with
  | nil => exact absurd rfl hmore
  | cons s more ih =>
      obtain ⟨hs, hrest⟩ := List.forall_mem_cons.mp hroom
      cases more with
      | nil => rw [writtenCells, readFrom_writtenCell hplace hs, readFrom_rowEnd, List.reverse_cons]
      | cons t more =>
          rw [writtenCells, List.append_assoc, readFrom_writtenCell hplace hs, List.cons_append, readFrom_comma,
            ih .cellStart (List.cons_ne_nil t more) hrest, List.reverse_cons, List.append_assoc,
            List.singleton_append]

/-- Written rows are read one after the other. -/
theorem readFrom_written {more : List (List String × RowEnd)} (hplace : place.Between)
    (hnonempty : ∀ row ∈ more, row.1 ≠ []) (hroom : ∀ row ∈ more, ∀ s ∈ row.1, s.length ≤ cellLimit) :
    readFrom false ⟨place, [], 0, [], rows⟩ (written more) = (rows.reverse ++ more.map Prod.fst, none) := by
  induction more generalizing place rows with
  | nil =>
      rw [List.map_nil, List.append_nil]
      cases hplace <;> rfl
  | cons row more ih =>
      obtain ⟨hcells, hnonempty⟩ := List.forall_mem_cons.mp hnonempty
      obtain ⟨hrow, hroom⟩ := List.forall_mem_cons.mp hroom
      rw [written, List.flatMap_cons, List.append_assoc, readFrom_writtenCells hplace.opens hcells hrow]
      refine (ih row.2.between hnonempty hroom).trans ?_
      rw [List.reverse_nil, List.nil_append, List.reverse_cons, List.append_assoc, List.singleton_append, List.map_cons]

/-- Reading gives the rows that were written, if all have cells and no cell is too long. -/
theorem read_written {rows : List (List String × RowEnd)} (hnonempty : ∀ row ∈ rows, row.1 ≠ [])
    (hroom : ∀ row ∈ rows, ∀ s ∈ row.1, s.length ≤ cellLimit) :
    read (written rows) false = (rows.map Prod.fst, none) :=
  readFrom_written .rowStart hnonempty hroom

end LabelScheduler.Text.Csv
