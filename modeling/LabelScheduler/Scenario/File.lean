import LabelScheduler.Journal
import LabelScheduler.RunReference
import LabelScheduler.Scenario.Sheet
import LabelScheduler.Text.NameOrder
import LabelScheduler.Text.Utf8

/-!
# Scenario files

A scenario is given by two files: the nodes, with a name and labels each, and the jobs, with a task
and a label each and with an optional task or run to wait for. A file is read record by record, and
the first record that is not in order ends the reading.
-/

namespace LabelScheduler

/-- A node of a scenario. -/
structure NodeSpec where
  name : String
  labels : String
  deriving DecidableEq

/-- A job of a scenario: `awaited` is a task and `after` a run that it waits for. -/
structure JobSpec where
  task : String
  label : String
  awaited : Option String
  after : Option String
  deriving DecidableEq

/-- What is found under a path. -/
inductive File where
  | missing
  | directory
  | nameTooLong
  | bytes (content : List UInt8)

/-- Why a record is not in order. -/
inductive RowFault where
  | emptyNode
  | duplicateNode (name : String)
  | emptyTask
  | markedTask
  | run (f : RunIdFault)
  deriving DecidableEq

/-- Why a scenario file cannot be used. -/
inductive FileFault where
  | notFound (path : String)
  | isDirectory (path : String)
  | nameTooLong (path : String)
  | lacksColumns (columns : List String)
  | cellTooLong
  | undecodable (f : Text.Utf8.Fault)
  | row (number : Nat) (f : RowFault)
  deriving DecidableEq

/-- The fault in words. -/
def RowFault.message : RowFault → String
  | .emptyNode => "empty node name"
  | .duplicateNode n => "duplicate node name '" ++ n ++ "'"
  | .emptyTask => "empty task name"
  | .markedTask => "task name may not contain '#'"
  | .run f => f.message

/-- The fault in words. -/
def FileFault.message : FileFault → String
  | .notFound p => "Scenario file not found: " ++ p
  | .isDirectory p => "Error reading scenario file: [Errno 21] Is a directory: " ++ Text.quoted p
  | .nameTooLong p => "[Errno 36] File name too long: " ++ Text.quoted p
  | .lacksColumns cs =>
    "Missing required headers: \x7b" ++ ", ".intercalate (cs.map Text.quoted) ++ "\x7d"
  | .cellTooLong =>
    "Error reading scenario file: field larger than field limit (" ++ toString Text.Csv.cellLimit ++
      ")"
  | .undecodable f => "Error reading scenario file: " ++ f.message
  | .row n f => "Row " ++ toString n ++ ": " ++ f.message

/-- What reading a file gives: the events and the specs or a fault. -/
structure FileReading (α : Type) where
  events : List Event
  result : Except FileFault (List α)

namespace FileReading

/-- The columns that a file of nodes must have, in order. -/
def nodeColumns : List String := ["labels", "name"]

/-- The columns that a file of jobs must have, in order. -/
def jobColumns : List String := ["label", "task"]

/-- The node in a record, when the given nodes come before it. -/
def nodeOf (before : List NodeSpec) (r : Row) : Except RowFault NodeSpec :=
  let name := r.text "name"
  if name.isEmpty then .error .emptyNode
  else if before.any (·.name == name) then .error (.duplicateNode name)
  else .ok ⟨name, r.text "labels"⟩

/-- The job in a record. -/
def jobOf (_before : List JobSpec) (r : Row) : Except RowFault JobSpec :=
  let task := r.text "task"
  if task.isEmpty then .error .emptyTask
  else if task.toList.contains '#' then .error .markedTask
  else
    let after := r.text? "after"
    match after.map RunReference.ofId with
    | some (.error f) => .error (.run f)
    | _ => .ok ⟨task, r.text "label", r.text? "upstream", after⟩

/-- Read records, the first being the `number`-th row; `last` is what ended the sheet early. The
specs read so far come last first. -/
def ofRows {α : Type} (spec : List α → Row → Except RowFault α) (last : Option FileFault) :
    Nat → List α → List Row → FileReading α
  | _, before, [] =>
    ⟨[], match last with
      | some f => .error f
      | none => .ok before.reverse⟩
  | number, before, r :: rs =>
    let noted := Event.rowRead number r.shown
    match spec before r with
    | .error f => ⟨[noted], .error (.row number f)⟩
    | .ok a =>
      let rest := ofRows spec last (number + 1) (a :: before) rs
      ⟨noted :: rest.events, rest.result⟩

/-- Read the text of a file; `fault` is what is wrong with the bytes after it. -/
def ofText {α : Type} (spec : List α → Row → Except RowFault α) (columns : List String)
    (text : List Char) (fault : Option Text.Utf8.Fault) : FileReading α :=
  let sheet := Sheet.read text fault.isSome
  let last := match sheet.stop, fault with
    | some .tooLong, _ => some FileFault.cellTooLong
    | _, some f => some (.undecodable f)
    | _, none => none
  match sheet.header, last with
  | none, some f => ⟨[], .error f⟩
  | _, _ =>
    match sheet.lacking columns with
    | [] => ofRows spec last 2 [] sheet.records
    | cs => ⟨[], .error (.lacksColumns cs)⟩

/-- Read what is found under a path. -/
def ofFile {α : Type} (spec : List α → Row → Except RowFault α) (columns : List String)
    (path : String) : File → FileReading α
  | .missing => ⟨[], .error (.notFound path)⟩
  | .directory => ⟨[.fileOpened path], .error (.isDirectory path)⟩
  | .nameTooLong => ⟨[], .error (.nameTooLong path)⟩
  | .bytes content =>
    let (text, fault) := Text.Utf8.decode content
    let reading := ofText spec columns text fault
    ⟨.fileOpened path :: reading.events, reading.result⟩

/-- The nodes in a file. -/
def nodes (path : String) (file : File) : FileReading NodeSpec :=
  ofFile nodeOf nodeColumns path file

/-- The jobs in a file. -/
def jobs (path : String) (file : File) : FileReading JobSpec := ofFile jobOf jobColumns path file

end FileReading

end LabelScheduler
