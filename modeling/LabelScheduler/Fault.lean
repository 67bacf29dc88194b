import LabelScheduler.Label.Recipe
import LabelScheduler.Item

/-!
# Faults of the scheduler

Operations are refused, and collaborators fail, each for a reason of its own. A fault has a kind and
a wording; those of outside parties bring both with them.
-/

namespace LabelScheduler

/-- Why an operation did not succeed. -/
inductive Fault where
  | label (f : RecipeFault)
  | run (f : RunIdFault)
  | taskName (task : String)
  | unknownNode (name : String)
  | duplicateNode (name : String)
  | nodeBusy (name : String) (item : Nat)
  | unknownItem (item : String)
  | stillPending
  | withdrawn
  | outside (kind message : String)
  deriving DecidableEq

/-- The kind of a fault in a label. -/
def RecipeFault.kind : RecipeFault → String
  | .parse _ => "ParseError"
  | .name (.notText _ _) | .lacks _ _ => "AttributeError"
  | .notCombinable _ | .unsupported _ _ _ | .notNegatable _ => "TypeError"
  | .noSuchOperand => "IndexError"
  | .name _ | .operandCount _ _ | .strayAtom => "ValueError"

namespace Fault

/-- The kind of a fault. -/
def kind : Fault → String
  | .label f => f.kind
  | .run _ | .taskName _ => "ValueError"
  | .unknownNode _ => "UnknownNodeError"
  | .duplicateNode _ => "DuplicateNodeError"
  | .nodeBusy _ _ => "NodeBusyError"
  | .unknownItem _ => "UnknownItemError"
  | .stillPending => "TimeoutError"
  | .withdrawn => "CancelledError"
  | .outside k _ => k

/-- The fault in words. -/
def message : Fault → String
  | .label f => f.message
  | .run f => f.message
  | .taskName t => "Task names may not contain '#': " ++ Text.quoted t
  | .unknownNode n => "Unknown node: " ++ Text.quoted n
  | .duplicateNode n => "Node already registered: " ++ Text.quoted n
  | .nodeBusy n i =>
    "Node '" ++ n ++ "' is running item #" ++ toString i ++ "; complete the item to release it"
  | .unknownItem i => "Item " ++ i ++ " is not assigned"
  | .stillPending | .withdrawn => ""
  | .outside _ m => m

end Fault

end LabelScheduler
