import LabelScheduler.CommandLine.Options
import LabelScheduler.CommandLine.Directory
import LabelScheduler.Scenario.Replay

/-!
# The command line

A run reads the nodes of a scenario and then checks one label against them, checks the labels of the
jobs, or replays the jobs. It ends with a code: zero, one for a scenario file that is not in order,
two for malformed labels and unusable arguments, five and six for faults of the scheduler.
-/

namespace LabelScheduler.CommandLine

/-- What a run leaves behind: what it printed, what is wrong with its arguments, and its code. -/
structure Report where
  output : String
  complaint : Option UsageFault
  code : Nat
  deriving DecidableEq

/-- The path that a value names. -/
def Value.path : Value → String
  | .text s => normalPath s
  | .nothing => "[]"

/-- A value as a label is checked; no value is an empty list. -/
def Value.datum : Value → Datum
  | .text s => .text s
  | .nothing => .list

/-- How a fault of the scheduler ends a run: the note that it makes and the code. -/
def ending (f : Fault) : String × Nat :=
  match f with
  | .label (.parse p) => ("Label parsing error: " ++ p.message, 2)
  | .unknownNode _ | .duplicateNode _ | .nodeBusy _ _ | .unknownItem _ =>
    ("Scheduler error: " ++ f.message, 5)
  | f => ("Unexpected error: " ++ f.message, 6)

namespace Report

/-- The end of a run: the journal as the reader asked for it, and then what else was printed. -/
def finish (level : Level) (s : Scheduler) (printed : String) (code : Nat) : Report :=
  ⟨journalText level s.journal.reverse ++ printed, none, code⟩

/-- The end of a run whose arguments turn out not to do. -/
def refuse (level : Level) (s : Scheduler) (f : UsageFault) : Report :=
  ⟨journalText level s.journal.reverse, some f, 2⟩

/-- The end of a run with a fault of a file. A path that cannot even be looked up was not expected.
-/
def ofFileFault (level : Level) (s : Scheduler) (f : FileFault) : Report :=
  match f with
  | .nameTooLong _ => finish level (s.log (.note .error ("Unexpected error: " ++ f.message))) "" 6
  | f => finish level (s.log (.note .error ("Scenario file error: " ++ f.message))) "" 1

/-- The end of a run with a fault of the scheduler. -/
def ofFault (level : Level) (s : Scheduler) (f : Fault) : Report :=
  finish level (s.log (.note .error (ending f).1)) "" (ending f).2

end Report

/-- Check a label against the nodes. -/
def runCheck (level : Level) (s : Scheduler) (label : Value) : Report :=
  match s.checkDatum label.datum with
  | (s₁, .error f) => .ofFault level s₁ f
  | (s₁, .ok c) => .finish level s₁ (c.text ++ "\n") (if c.accepted then 0 else 2)

/-- Check the labels of jobs, and replay them unless they are only to be checked. -/
def runJobs (level : Level) (validateOnly : Bool) (jobs : List JobSpec) (s : Scheduler) : Report :=
  match JobSpec.checkAll jobs s with
  | (s₁, false) => .finish level s₁ "" 2
  | (s₁, true) =>
    if validateOnly then
      .finish level (s₁.log (.note .info "✅ Scenario validation successful. Exiting.")) "" 0
    else
      match s₁.replay jobs with
      | (s₂, .error f) => .ofFault level s₂ f
      | (s₂, .ok items) => .finish level (s₂.summarize items) "" 0

/-- A run on the nodes of a scenario. -/
def runNodes (files : String → File) (level : Level) (o : Options) (nodes : List NodeSpec)
    (s : Scheduler) : Report :=
  match poolOf nodes s with
  | (s₁, .error f) => .ofFault level s₁ f
  | (s₁, .ok _) =>
    let s₂ := s₁.log
      (.note .info ("🖥️  " ++ toString s₁.pool.nodes.length ++ " node(s) registered"))
    match o.checkLabel, o.jobs with
    | some label, _ => runCheck level s₂ label
    | none, none => .refuse level s₂ .jobsMissing
    | none, some v =>
      let reading := FileReading.jobs v.path (files v.path)
      let s₃ := s₂.logAll reading.events
      match reading.result with
      | .error f => .ofFileFault level s₃ f
      | .ok jobs => runJobs level o.validateOnly jobs s₃

/-- A run with the given arguments, where `files` says what is found under a path. -/
def run (files : String → File) (arguments : List String) : Report :=
  match Options.parse arguments with
  | .error f => ⟨"", some f, 2⟩
  | .ok (nodes, o) =>
    let level := Level.ofFlags o.verbose o.debug
    let reading := FileReading.nodes nodes.path (files nodes.path)
    let s := Scheduler.empty.logAll reading.events
    match reading.result with
    | .error f => .ofFileFault level s f
    | .ok specs => runNodes files level o specs s

end LabelScheduler.CommandLine
