import LabelScheduler.Scheduler.Operations

/-!
# The dispatcher

A dispatcher listens to a queue and lets a single worker do the work of its assignments, one after
the other in the order in which it was told of them. Whether the work succeeds or not, its
completion is reported. Once it is shut down the dispatcher takes no further work, but finishes what
it has.
-/

namespace LabelScheduler

/-- A dispatcher: whether it takes work, the items whose work has not begun, the item at work with
the fault of its work, if any, and the items whose work was called, in order. -/
structure Dispatcher where
  accepting : Bool
  waiting : List ItemRef
  working : Option (ItemRef × Option Fault)
  called : List ItemRef
  deriving DecidableEq

namespace Dispatcher

/-- A dispatcher that has not been told of anything. -/
def initial : Dispatcher := ⟨true, [], none, []⟩

/-- The dispatcher is told of an assignment. -/
def accept (d : Dispatcher) (item : ItemRef) : Dispatcher × Option Fault :=
  if d.accepting then ({ d with waiting := d.waiting ++ [item] }, none)
  else (d, some (.outside "RuntimeError" "cannot schedule new futures after shutdown"))

/-- Take no further work. -/
def shutDown (d : Dispatcher) : Dispatcher := { d with accepting := false }

/-- No work is left: no item waits for the worker, and the report of the last one has returned. This is what whoever
waits for the dispatcher to be idle waits for: it is told yes as soon as this is so, and told no if its time is up
before. With no operation under way, nothing follows on its own either. -/
def isIdle (d : Dispatcher) : Bool := d.waiting.isEmpty && d.working.isNone

/-- The worker begins with the next item: it reports the start, and unless that is refused the work
is called. -/
def begin (work : Scheduler → ItemRef → Option Fault) (d : Dispatcher) (s : Scheduler) :
    Dispatcher × Scheduler :=
  match d.working, d.waiting with
  | none, item :: rest =>
    match s.started item.queue item with
    | (s', .ok _) =>
      let called := d.called ++ [item]
      ({ d with waiting := rest, working := some (item, work s' item), called := called }, s')
    | (s', .error f) => ({ d with waiting := rest, working := some (item, some f) }, s')
  | _, _ => (d, s)

/-- The worker reports that the work on an item has ended. -/
def report (judge : Judge) (item : ItemRef) (s : Scheduler) : Dialogue Unit :=
  s.completed judge item.queue item

/-- The worker is done with an item. A fault of the report is noted in place of that of the work. -/
def finish (d : Dispatcher) (reported : Except Fault Unit) (s : Scheduler) :
    Dispatcher × Scheduler :=
  let fault := match reported with
    | .error f => some f
    | .ok _ => d.working.bind (·.2)
  ({ d with working := none },
    match fault with
    | some f => s.log (.buildFailed f.kind f.message)
    | none => s)

end Dispatcher

end LabelScheduler
