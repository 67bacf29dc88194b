/-!
# Comma-separated values

A text is read as rows of cells. Commas part the cells of a row, and a row ends at a line feed, a
carriage return or both. A cell that begins with a double quote runs to the quote that closes it,
whatever stands between; there a doubled quote stands for one, and text after the closing quote is
added to the cell. A quote elsewhere is an ordinary character, and no cell may grow past a limit.
-/

namespace LabelScheduler.Text.Csv

/-- Where in a row a reader is. -/
inductive Place where
  | rowStart
  | afterReturn
  | cellStart
  | plain
  | quoted
  | closing
  deriving DecidableEq

/-- A reader: its place, the cell it is in, with its size, the cells of the row before that one and
the rows before that one, all last first. -/
structure Reader where
  place : Place
  cell : List Char
  size : Nat
  cells : List String
  rows : List (List String)
  deriving DecidableEq

/-- The number of characters that a cell may have. -/
def cellLimit : Nat := 131072

namespace Reader

/-- Nothing has been read. -/
def initial : Reader := ⟨.rowStart, [], 0, [], []⟩

/-- Add a character to the cell, unless it is full. -/
def push (r : Reader) (c : Char) (place : Place) : Option Reader :=
  if r.size < cellLimit then some { r with place := place, cell := c :: r.cell, size := r.size + 1 }
  else none

/-- The cell is complete. -/
def endCell (r : Reader) : Reader :=
  { r with
    place := .cellStart, cell := [], size := 0, cells := String.ofList r.cell.reverse :: r.cells }

/-- The row is complete. -/
def endRow (r : Reader) (place : Place) : Reader :=
  { r with place := place, cells := [], rows := r.cells.reverse :: r.rows }

/-- Where a reader is after the end of a line. -/
def placeAfter (c : Char) : Place := if c = '\r' then .afterReturn else .rowStart

/-- Outside quotes: what parts cells and rows, or else a character of the cell. -/
def unquoted (r : Reader) (c : Char) : Option Reader :=
  if c = ',' then some r.endCell
  else if c = '\n' ∨ c = '\r' then some (r.endCell.endRow (placeAfter c))
  else r.push c .plain

/-- At the start of a cell. -/
def opening (r : Reader) (c : Char) : Option Reader :=
  if c = '"' then some { r with place := .quoted } else r.unquoted c

/-- At the start of a row; a line without anything in it is a row without cells. -/
def beginning (r : Reader) (c : Char) : Option Reader :=
  if c = '\n' ∨ c = '\r' then some (r.endRow (placeAfter c)) else r.opening c

/-- Read one character; nothing if the cell is full. -/
def step (r : Reader) (c : Char) : Option Reader :=
  match r.place with
  | .rowStart => r.beginning c
  | .afterReturn => if c = '\n' then some { r with place := .rowStart } else r.beginning c
  | .cellStart => r.opening c
  | .plain => r.unquoted c
  | .quoted => if c = '"' then some { r with place := .closing } else r.push c .quoted
  | .closing => if c = '"' then r.push c .quoted else r.unquoted c

/-- The end of the text: an unfinished row is complete. -/
def finish (r : Reader) : Reader :=
  match r.place with
  | .rowStart | .afterReturn => r
  | _ => r.endCell.endRow .rowStart

end Reader

/-- Why reading ended before the end of the text. -/
inductive Stop where
  | tooLong
  | cutOff
  deriving DecidableEq

/-- Read characters; `cut` says that the text breaks off after them, so that an unfinished row is no
row. The answer is the rows and what ended the reading early. -/
def readFrom (cut : Bool) (r : Reader) : List Char → List (List String) × Option Stop
  | [] => if cut then (r.rows.reverse, some .cutOff) else (r.finish.rows.reverse, none)
  | c :: cs =>
    match r.step c with
    | none => (r.rows.reverse, some .tooLong)
    | some r' => readFrom cut r' cs

/-- The lines of a text that are complete: all up to its last line end, where a carriage return at
the very end is none yet. -/
def completeLines (cs : List Char) : List Char :=
  let rest := match cs.reverse with
    | '\r' :: rest => rest
    | rest => rest
  (rest.dropWhile fun c => c ≠ '\n' ∧ c ≠ '\r').reverse

/-- The rows of a text. Of a text that breaks off only the complete lines are read. -/
def read (text : List Char) (cut : Bool) : List (List String) × Option Stop :=
  readFrom cut .initial (if cut then completeLines text else text)

end LabelScheduler.Text.Csv
