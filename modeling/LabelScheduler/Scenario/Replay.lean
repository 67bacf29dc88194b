import LabelScheduler.LabelCheck
import LabelScheduler.Scenario.File
import LabelScheduler.Scheduler.Operations

/-!
# Replaying a scenario

The nodes of a scenario make a pool. Its jobs can be checked against that pool, or replayed: all are
submitted to one queue, and then the work that is building completes, in the order of assignment,
until nothing is building.
-/

namespace LabelScheduler

/-- A scheduler with the nodes of a scenario. -/
def poolOf (nodes : List NodeSpec) (s : Scheduler) : Scheduler × Except Fault Unit :=
  s.registerAll (nodes.map fun n => (n.name, n.labels))

namespace JobSpec

/-- How the check of its label is noted for a job. -/
def checkEvent (j : JobSpec) (c : LabelCheck) : Event :=
  let text := "Job '" ++ j.task ++ "': " ++ c.message
  match c.kind with
  | .error => .note .error text
  | .warning => .note .warning ("⚠️  " ++ text)
  | .ok => .note .info text

/-- Check the labels of jobs; the answer says whether none is malformed. -/
def checkAll : List JobSpec → Scheduler → Scheduler × Bool
  | [], s => (s, true)
  | j :: js, s =>
    let (s₁, c) := s.checkLabel j.label
    let (s₂, valid) := checkAll js (s₁.log (j.checkEvent c))
    (s₂, c.accepted && valid)

/-- What a job waits for. -/
def blockers (j : JobSpec) : Except Fault (List Blocker) :=
  let first := match j.awaited with
    | some t => if t.isEmpty then [] else [.task t false]
    | none => []
  match j.after with
  | none => .ok first
  | some id =>
    if id.isEmpty then .ok first
    else
      match RunReference.ofId id with
      | .ok r => .ok (first ++ [.run r])
      | .error f => .error (.run f)

/-- Submit jobs to a queue; the first that is refused ends it. -/
def submitAll (q : Nat) : List JobSpec → Scheduler → Scheduler × Except Fault (List ItemRef)
  | [], s => (s, .ok [])
  | j :: js, s =>
    match j.blockers with
    | .error f => (s, .error f)
    | .ok bs =>
      match (s.submit .lenient q (.plain (.text j.label)) j.task bs).playSilent with
      | (s₁, .error f) => (s₁, .error f)
      | (s₁, .ok i) =>
        let (s₂, rest) := submitAll q js s₁
        (s₂, rest.map (i :: ·))

end JobSpec

namespace Scheduler

/-- Complete what is building, the earliest assignment first, `limit` items at the most. -/
def drain (q : Nat) : (limit : Nat) → Scheduler → Scheduler × Except Fault Unit
  | 0, s => (s, .ok ())
  | limit + 1, s =>
    match (s.queue q).building with
    | [] => (s, .ok ())
    | id :: _ =>
      match (s.completed .lenient q ⟨q, id⟩).playSilent with
      | (s₁, .ok _) => drain q limit s₁
      | (s₁, .error f) => (s₁, .error f)

/-- Note why items are still pending. -/
def explainPending (q : Nat) : List Nat → Scheduler → Scheduler × Except Fault Unit
  | [], s => (s, .ok ())
  | id :: ids, s =>
    match s.whyPending .lenient q ⟨q, id⟩ with
    | (s₁, .error f) => (s₁, .error f)
    | (s₁, .ok reason) =>
      let item := ((s₁.get? ⟨q, id⟩).map (·.item.text)).getD ""
      explainPending q ids (s₁.log (.stillPending item (reason.getD "None")))

/-- Replay jobs on a new queue. Each item completes once, so there are no more completions than
items. -/
def replay (jobs : List JobSpec) (s : Scheduler) : Scheduler × Except Fault (List ItemRef) :=
  let q := s.queues.length
  match JobSpec.submitAll q jobs (s.openQueue []) with
  | (s₁, .error f) => (s₁, .error f)
  | (s₁, .ok items) =>
    match s₁.drain q (s₁.queue q).entrants.length with
    | (s₂, .error f) => (s₂, .error f)
    | (s₂, .ok _) =>
      match explainPending q (s₂.queue q).pending s₂ with
      | (s₃, .error f) => (s₃, .error f)
      | (s₃, .ok _) => (s₃, .ok items)

/-- Where a submitted job has got to. -/
def summaryLine (e : Entrant) : String :=
  "  " ++ e.item.task.text ++ ": " ++
    match e.state, e.assignment with
    | .completed, some a => "✅ " ++ a.text
    | state, _ => "⏳ " ++ state.name

/-- Note where the submitted jobs have got to. -/
def summarize (items : List ItemRef) (s : Scheduler) : Scheduler :=
  let lines := (items.filterMap s.get?).map summaryLine
  s.logAll ((("\n📊 Jobs submitted: " ++ toString items.length) :: lines).map (Event.note .info))

end Scheduler

end LabelScheduler
