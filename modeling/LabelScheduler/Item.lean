import LabelScheduler.Label.Render
import LabelScheduler.RunReference

/-!
# Items

An item is a piece of work that waits in a queue. It is pending until it is assigned to a node or
cancelled; an assigned item may be reported running, and it completes once. Its submitter is
promised the assignment.
-/

namespace LabelScheduler

/-- The states of an item. -/
inductive ItemState where
  | pending
  | assigned
  | running
  | completed
  | cancelled
  deriving DecidableEq

namespace ItemState

/-- All states, in the order in which an item goes through them. -/
def all : List ItemState := [.pending, .assigned, .running, .completed, .cancelled]

/-- The state in words. -/
def name : ItemState → String
  | .pending => "PENDING"
  | .assigned => "ASSIGNED"
  | .running => "RUNNING"
  | .completed => "COMPLETED"
  | .cancelled => "CANCELLED"

/-- The item occupies its node. -/
def isBuilding : ItemState → Bool
  | .assigned | .running => true
  | _ => false

end ItemState

/-- Where an item is: the number of its queue and its own number there. -/
structure ItemRef where
  queue : Nat
  id : Nat
  deriving DecidableEq

/-- Someone outside the scheduler, known by a number. -/
abbrev Party := Nat

/-- A reason to hold an item back, asked for before labels are matched: an item that is building, a
task of the same queue that is building or, if `queued`, waiting, a run that is building, or the
word of an outside party. -/
inductive Blocker where
  | item (awaited : ItemRef)
  | task (name : String) (queued : Bool)
  | run (r : RunReference)
  | party (p : Party)
  deriving DecidableEq

/-- A piece of work. -/
structure Item where
  id : Nat
  task : TaskName
  label : Option Label
  blockers : List Blocker
  deriving DecidableEq

/-- An item in words. -/
def itemText (id : Int) (task : String) : String := "#" ++ toString id ++ ":" ++ task

namespace Item

/-- The item in words. -/
def text (i : Item) : String := itemText i.id i.task.text

/-- The written label of an item. -/
def labelName (i : Item) : Option String := i.label.map Label.name

end Item

/-- The node that an item was given to, by name and registration, and the run it became. -/
structure Assignment where
  node : String
  serial : Nat
  run : RunReference
  deriving DecidableEq

/-- The assignment in words. -/
def Assignment.text (a : Assignment) : String := a.run.id ++ " on " ++ a.node

/-- What has become of the promise of an assignment. -/
inductive Promise where
  | open
  | kept (a : Assignment)
  | withdrawn
  deriving DecidableEq

/-- An item with its present state; `watchers` are told when the promise is settled. -/
structure Entrant where
  item : Item
  state : ItemState
  assignment : Option Assignment
  promise : Promise
  watchers : List Party
  deriving DecidableEq

/-- An item, its state and its node in words. -/
def entrantText (item : String) (state : ItemState) (node : Option String) : String :=
  "ItemHandle(" ++ item ++ ", state=" ++ state.name ++ ", node=" ++ node.getD "None" ++ ")"

namespace Entrant

/-- An item that has just been submitted. -/
def fresh (item : Item) : Entrant := ⟨item, .pending, none, .open, []⟩

/-- The name of the node that the item was given to. -/
def node (e : Entrant) : Option String := e.assignment.map Assignment.node

/-- The run that the item became. -/
def run (e : Entrant) : Option RunReference := e.assignment.map Assignment.run

/-- The promise is settled. -/
def isSettled (e : Entrant) : Bool := e.promise != .open

/-- The item, its state and its node in words. -/
def text (e : Entrant) : String := entrantText e.item.text e.state e.node

end Entrant

end LabelScheduler
