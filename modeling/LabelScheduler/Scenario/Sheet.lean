import LabelScheduler.Literal
import LabelScheduler.Text.Csv
import LabelScheduler.Text.Blank

/-!
# Sheets

The first row of a sheet names its columns, and every other row is a record of them; rows without
cells do not count. A record that is too short lacks its last columns, the cells that it has too
many go under the empty name, and of columns with the same name the last one gives the value.
-/

namespace LabelScheduler

/-- What a record has in a column. -/
inductive Cell where
  | missing
  | text (s : String)
  | surplus (cells : List String)
  deriving DecidableEq

/-- A cell as a plain value. -/
def Cell.literal : Cell → Literal
  | .missing => .none
  | .text s => .text s
  | .surplus cells => .list (cells.map .text)

/-- A record: its columns with their names, in order and each name once. -/
structure Row where
  columns : List (String × Cell)
  deriving DecidableEq

namespace Row

/-- Set the value under a key, in its place or else at the end. -/
def put {κ β : Type} [DecidableEq κ] (k : κ) (v : β) : List (κ × β) → List (κ × β)
  | [] => [(k, v)]
  | (k', v') :: rest => if k' = k then (k, v) :: rest else (k', v') :: put k v rest

/-- Keep each key once, at its first place and with its last value. -/
def collapse {κ β : Type} [DecidableEq κ] (pairs : List (κ × β)) : List (κ × β) :=
  pairs.foldl (fun kept p => put p.1 p.2 kept) []

/-- The columns of a header with the cells of a record; columns without a cell are missing. -/
def pair : (header cells : List String) → List (Option String × Cell)
  | [], _ => []
  | h :: hs, [] => (some h, .missing) :: pair hs []
  | h :: hs, c :: cs => (some h, .text c) :: pair hs cs

/-- The cells beyond the last column, under no name. -/
def surplus (header cells : List String) : List (Option String × Cell) :=
  match cells.drop header.length with
  | [] => []
  | rest => [(none, .surplus rest)]

/-- The record that a row of cells makes under a header. Blanks around names do not count. -/
def ofCells (header cells : List String) : Row :=
  ⟨collapse ((collapse (pair header cells) ++ surplus header cells).map fun p =>
    (Text.trim (p.1.getD ""), p.2))⟩

/-- The trimmed text in a column; empty if there is none. -/
def text (r : Row) (column : String) : String :=
  match r.columns.find? (·.1 == column) with
  | some (_, .text s) => Text.trim s
  | _ => ""

/-- The trimmed text in a column, if there is any. -/
def text? (r : Row) (column : String) : Option String :=
  let t := r.text column
  if t.isEmpty then none else some t

/-- A record as a plain value. -/
def literal (r : Row) : Literal := .dictionary (r.columns.map fun p => (p.1, p.2.literal))

/-- A record as it is shown. -/
def shown (r : Row) : String := r.literal.written

end Row

/-- A sheet: the names of its columns, if it has a first row, its records, and what ended its
reading early. -/
structure Sheet where
  header : Option (List String)
  records : List Row
  stop : Option Text.Csv.Stop

namespace Sheet

/-- The sheet in a text that may break off. -/
def read (text : List Char) (cut : Bool) : Sheet :=
  match Text.Csv.read text cut with
  | ([], stop) => ⟨none, [], stop⟩
  | (header :: rows, stop) =>
    ⟨some header, (rows.filter (!·.isEmpty)).map (Row.ofCells header), stop⟩

/-- The required columns that a sheet lacks. -/
def lacking (s : Sheet) (required : List String) : List String :=
  required.filter fun c => !((s.header.getD []).map Text.trim).contains c

end Sheet

end LabelScheduler
