import LabelScheduler.Item

/-!
# Queues

A queue numbers its items from one. It remembers all of them, and apart from that which are pending,
in the order of their submission, and which are building, in the order of their assignment. The runs
of each task are counted.
-/

namespace LabelScheduler

/-- A queue; the item numbered `i + 1` is at place `i` of `entrants`. -/
structure Queue where
  entrants : List Entrant
  pending : List Nat
  building : List Nat
  runs : List (TaskName × Nat)
  listeners : List Party
  deriving DecidableEq

namespace Queue

/-- A queue without items. -/
def empty : Queue := ⟨[], [], [], [], []⟩

/-- The item of a given number, with its state. -/
def get? (q : Queue) : Nat → Option Entrant
  | 0 => none
  | i + 1 => q.entrants[i]?

/-- The number that the next item gets. -/
def nextId (q : Queue) : Nat := q.entrants.length + 1

/-- Change the state of an item. -/
def update (q : Queue) (id : Nat) (f : Entrant → Entrant) : Queue :=
  { q with entrants := q.entrants.modify (id - 1) f }

/-- The pending items in the order of their submission. -/
def pendingEntrants (q : Queue) : List Entrant := q.pending.filterMap q.get?

/-- The building items in the order of their assignment. -/
def buildingEntrants (q : Queue) : List Entrant := q.building.filterMap q.get?

/-- How many runs of a task there have been. -/
def runsOf (q : Queue) (t : TaskName) : Nat := ((q.runs.find? (·.1 == t)).map (·.2)).getD 0

/-- Set the number of runs of a task. -/
def countRun (t : TaskName) (n : Nat) : List (TaskName × Nat) → List (TaskName × Nat)
  | [] => [(t, n)]
  | (u, m) :: rest => if u = t then (t, n) :: rest else (u, m) :: countRun t n rest

/-- An item of the task is building. -/
def isTaskBuilding (q : Queue) (task : String) : Bool :=
  q.buildingEntrants.any (·.item.task.text == task)

/-- An item of the task is pending, other than the excluded one. -/
def isTaskQueued (q : Queue) (task : String) (excluded : Option Nat) : Bool :=
  q.pendingEntrants.any fun e => e.item.task.text == task && some e.item.id != excluded

/-- The run is building. -/
def isRunBuilding (q : Queue) (r : RunReference) : Bool :=
  q.buildingEntrants.any (·.run == some r)

/-- The queue with a new item at its end. -/
def add (q : Queue) (item : Item) : Queue :=
  { q with entrants := q.entrants ++ [.fresh item], pending := q.pending ++ [item.id] }

/-- The next run of the task. -/
def nextRun (q : Queue) (t : TaskName) : RunReference := ⟨t, q.runsOf t + 1, by omega⟩

/-- Move an item from the pending to the building ones. -/
def assign (q : Queue) (id : Nat) (a : Assignment) : Queue :=
  let counted := { q with
    pending := q.pending.erase id
    building := q.building ++ [id]
    runs := countRun a.run.task a.run.number q.runs }
  counted.update id fun e => { e with state := .assigned, assignment := some a }

/-- Take an item out of the pending ones. -/
def withdraw (q : Queue) (id : Nat) : Queue :=
  let rest := { q with pending := q.pending.erase id }
  rest.update id fun e => { e with state := .cancelled }

/-- Note that the work on an item has begun. -/
def start (q : Queue) (id : Nat) : Queue := q.update id fun e => { e with state := .running }

/-- Take an item out of the building ones. -/
def complete (q : Queue) (id : Nat) : Queue :=
  let rest := { q with building := q.building.erase id }
  rest.update id fun e => { e with state := .completed }

end Queue

end LabelScheduler
