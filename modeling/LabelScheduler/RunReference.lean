import LabelScheduler.Text.Numeral

/-!
# Tasks and their runs

A task has a name without the mark `#`, and its runs are numbered from one. A run is referred to by
the name of the task, the mark and the number; reading a reference ignores blanks around both parts.
-/

namespace LabelScheduler

/-- A text that can name a task: it is not empty and does not hold the mark. -/
def isTaskName (s : String) : Bool := !s.isEmpty && !s.toList.contains '#'

/-- The name of a task. -/
structure TaskName where
  text : String
  valid : isTaskName text = true
  deriving DecidableEq

/-- A run of a task. -/
structure RunReference where
  task : TaskName
  number : Nat
  positive : 0 < number
  deriving DecidableEq

/-- Why a name and a number are no run. -/
inductive RunFault where
  | task (name : String)
  | number (n : Int)
  deriving DecidableEq

/-- Why a text does not refer to a run. -/
inductive RunIdFault where
  | shape (id : String)
  | numeral (id : String) (f : Text.NumeralFault)
  | run (id : String) (f : RunFault)
  deriving DecidableEq

namespace RunReference

/-- The run of a given task name and number. -/
def make (task : String) (number : Int) : Except RunFault RunReference :=
  if ht : isTaskName task then
    if hn : 0 < number then .ok ⟨⟨task, ht⟩, number.toNat, by omega⟩
    else .error (.number number)
  else .error (.task task)

/-- The reference to a run. -/
def id (r : RunReference) : String := r.task.text ++ "#" ++ toString r.number

/-- The run that a text refers to. -/
def ofId (s : String) : Except RunIdFault RunReference :=
  match Text.piecesAt '#' (Text.trimBoth Text.isBlank s.toList) with
  | [task, number] =>
    match Text.readNumeral (Text.trim (String.ofList number)) with
    | .error f => .error (.numeral s f)
    | .ok n => (make (Text.trim (String.ofList task)) n).mapError (.run s)
  | _ => .error (.shape s)

/-- The reference as the value of a named parameter. -/
def asParameter (r : RunReference) (name : String) : String :=
  "(RunReference) " ++ name ++ "='" ++ r.id ++ "'"

end RunReference

/-- The fault in words. -/
def RunFault.message : RunFault → String
  | .task n => "Invalid job name for a run reference: " ++ Text.quoted n
  | .number n => "Build numbers start at 1, got " ++ toString n

/-- The fault in words. -/
def RunIdFault.message : RunIdFault → String
  | .shape id => "Run id must look like 'job#number': " ++ Text.quoted id
  | .numeral id f => "Invalid run id " ++ Text.quoted id ++ ": " ++ f.message
  | .run id f => "Invalid run id " ++ Text.quoted id ++ ": " ++ f.message

end LabelScheduler
