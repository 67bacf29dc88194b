import LabelScheduler.Rehearsal.Step

/-!
# Rehearsing a dispatcher

In a shift a dispatcher joins the rehearsal. First all jobs are submitted; then the worker works
until nothing is left, and what completions let go is worked on as well; then the dispatcher is shut
down, and the last jobs are submitted to no avail.
-/

namespace LabelScheduler

/-- A job of a shift; `fail` is the message with which its work fails. -/
structure ShiftJob where
  label : Recipe
  task : String
  blockers : List BlockerSpec
  fail : Option String

/-- What is seen of a shift: the replies to the jobs, whether no work was left before and after the
work, the replies to the jobs after it, and the state at its end. -/
structure Shift where
  submitted : List (Except Fault Reply)
  idleBefore : Bool
  idleAfter : Bool
  afterwards : List (Except Fault Reply)
  final : Rehearsal

namespace Shift

/-- How the work of an item ends: it fails if a job of its task says so, the last such job first. -/
def workOf (jobs : List ShiftJob) (s : Scheduler) (item : ItemRef) : Option Fault :=
  let task := ((s.get? item).map (·.item.task.text)).getD ""
  let failing := jobs.reverse.filterMap fun j => if j.task = task then j.fail else none
  failing.head?.map (Fault.outside "RuntimeError")

/-- The dispatcher joins. -/
def join (r : Rehearsal) : Rehearsal :=
  let (c, p) := r.cast.add .dispatcher
  ⟨r.scheduler.addListener 0 p, c⟩

/-- Submit jobs one after the other. -/
def submitAll (r : Rehearsal) : List ShiftJob → Rehearsal × List (Except Fault Reply)
  | [] => (r, [])
  | j :: js =>
    let (r', reply) := r.submit 0 j.label j.task j.blockers
    let (r'', replies) := submitAll r' js
    (r'', reply :: replies)

/-- The worker does the work of one item. -/
def workOnce (jobs : List ShiftJob) (r : Rehearsal) : Rehearsal :=
  let (d, s) := r.cast.dispatcher.begin (workOf jobs) r.scheduler
  match d.working with
  | none => r
  | some (item, _) =>
    let c := { r.cast with dispatcher := d }
    let (c', s', reported) := c.run (Dispatcher.report c.judge item s)
    let (d', s'') := c'.dispatcher.finish reported s'
    ⟨s'', { c' with dispatcher := d' }⟩

/-- The worker works until nothing is left, on `limit` items at the most. -/
def work (jobs : List ShiftJob) : (limit : Nat) → Rehearsal → Rehearsal
  | 0, r => r
  | limit + 1, r => if r.cast.dispatcher.isIdle then r else work jobs limit (workOnce jobs r)

/-- How many items a worker works on in a shift. -/
def workLimit : Nat := 100000

/-- A whole shift. -/
def run (jobs afterwards : List ShiftJob) (r : Rehearsal) : Shift :=
  let (r₁, submitted) := submitAll (join r) jobs
  let r₂ := work jobs workLimit r₁
  let closed := { r₂ with
    cast := { r₂.cast with dispatcher := r₂.cast.dispatcher.shutDown } }
  let (r₃, late) := submitAll closed afterwards
  ⟨submitted, r₁.cast.dispatcher.isIdle, r₂.cast.dispatcher.isIdle, late, r₃.seeAll⟩

/-- The items that have been seen, in the order of their numbers. -/
def items (s : Shift) : List Entrant :=
  (s.final.scheduler.queue 0).entrants.filter fun e =>
    s.final.cast.known.contains ⟨0, e.item.id⟩

/-- The items whose work was called, in order. -/
def worked (s : Shift) : List Entrant :=
  s.final.cast.dispatcher.called.filterMap s.final.scheduler.get?

end Shift

end LabelScheduler
