import LabelScheduler.Scheduler.Basic

/-!
# Checking a label before it is used

The label of a job is checked against the nodes that are registered now: it may be malformed, it may
be satisfied by no node, or some nodes can run the job.
-/

namespace LabelScheduler

/-- How a check came out. -/
inductive CheckKind where
  | ok
  | warning
  | error
  deriving DecidableEq

/-- The outcome in words. -/
def CheckKind.name : CheckKind → String
  | .ok => "OK"
  | .warning => "WARNING"
  | .error => "ERROR"

/-- The result of checking a label. -/
structure LabelCheck where
  kind : CheckKind
  message : String
  deriving DecidableEq

namespace LabelCheck

/-- The label can be used, though perhaps no node satisfies it yet. -/
def accepted (c : LabelCheck) : Bool := c.kind != .error

/-- The result as one line. -/
def text (c : LabelCheck) : String := c.kind.name ++ ": " ++ c.message

end LabelCheck

/-- Check the text of a label. -/
def Scheduler.checkLabel (s : Scheduler) (text : String) : Scheduler × LabelCheck :=
  if Text.isBlankText text then (s, ⟨.ok, "Any node may run this job"⟩)
  else
    match s.parse text with
    | (s', .error f) =>
      (s'.log (.validation false ("Invalid label expression '" ++ text ++ "': " ++ f.message)),
        ⟨.error, "Invalid label expression: " ++ f.message⟩)
    | (s', .ok e) =>
      match s'.pool.matching (some e) with
      | [] => (s', ⟨.warning, "No node matches the label '" ++ e.name ++ "'"⟩)
      | n :: ns =>
        (s'.log (.validation true ("Label '" ++ e.name ++ "' is valid")),
          ⟨.ok, "Label '" ++ e.name ++ "' is serviced by " ++ toString (ns.length + 1) ++
            " node(s): " ++ ", ".intercalate ((n :: ns).map Node.name)⟩)

/-- Check a value that should be the text of a label. -/
def Scheduler.checkDatum (s : Scheduler) : Datum → Scheduler × Except Fault LabelCheck
  | .text t =>
    let (s', c) := s.checkLabel t
    (s', .ok c)
  | d => (s, .error (.label (.lacks d.kind "strip")))

end LabelScheduler
