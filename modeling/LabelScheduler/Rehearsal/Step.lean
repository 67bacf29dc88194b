import LabelScheduler.LabelCheck
import LabelScheduler.Rehearsal.Cast

/-!
# Rehearsals

A rehearsal takes a scheduler with scripted parties through a list of steps. Each step is answered,
by a reply or by a fault, and leaves behind what the parties heard and what was noted meanwhile.
Steps name items by queue and number; only queues that are open and items that have been seen can be
named.
-/

namespace LabelScheduler

/-- A blocker as a step names it. -/
inductive BlockerSpec where
  | item (queue : Nat) (item : Int)
  | task (name : String) (queued : Bool)
  | run (id : String)
  | policy (tag : String) (kind : PolicyKind)

/-- The labels of a node as a step names them. -/
inductive LabelSpec where
  | text (s : String)
  | parts (rs : List Recipe)

/-- A listener as a step names it; its queue is known from the step. -/
abbrev ListenerSpec := Nat → Listener

/-- A step of a rehearsal; one that could not be read stands for the fault in it. -/
inductive Step where
  | register (name : String) (labels : LabelSpec)
  | remove (name : String)
  | get (name : String)
  | find (name : String)
  | setState (name : String) (state : NodeState)
  | overrideState (name : String) (state : NodeState)
  | matching (label : Option Literal)
  | submit (queue : Nat) (label : Recipe) (task : String) (blockers : List BlockerSpec)
  | info (queue : Nat) (item : Int)
  | cancel (via queue : Nat) (item : Int)
  | withdraw (queue : Nat) (item : Int)
  | started (via queue : Nat) (item : Int)
  | completed (via queue : Nat) (item : Int)
  | maintain (via : Nat)
  | why (via queue : Nat) (item : Int)
  | result (queue : Nat) (item : Int)
  | watch (queue : Nat) (item : Int) (tag : String)
  | query (via : Nat) (task : String) (run : Option String) (excluded : Option Nat)
  | check (label : Datum)
  | flag (tag : String) (on : Bool)
  | openQueue (listener : Option ListenerSpec)
  | listen (queue : Nat) (listener : ListenerSpec)
  | subscribe (tag : String) (nth : Option Nat)
  | unreadable (f : Fault)

/-- The reply to a step. -/
inductive Reply where
  | nothing
  | flag (b : Bool)
  | number (n : Nat)
  | text (t : Option String)
  | texts (ts : List String)
  | node (n : Node)
  | found (n : Option Node) (isMember : Bool) (count : Nat)
  | matched (all idle : List String) (satisfiable : Bool)
  | item (e : Entrant)
  | queried (building queued : Bool) (running : Option Bool)

/-- A scheduler with the scripted parties around it. -/
structure Rehearsal where
  scheduler : Scheduler
  cast : Cast

namespace Rehearsal

/-- The reply of an operation that needs nobody. -/
def alone {α : Type} (r : Rehearsal) (op : Scheduler → Scheduler × Except Fault α)
    (reply : Scheduler → α → Reply) : Rehearsal × Except Fault Reply :=
  let (s, result) := op r.scheduler
  ({ r with scheduler := s }, result.map (reply s))

/-- The reply of an operation in which the parties have their say. -/
def together {α : Type} (r : Rehearsal) (op : Judge → Scheduler → Dialogue α)
    (reply : Scheduler → α → Reply) : Rehearsal × Except Fault Reply :=
  let (c, s, result) := r.cast.run (op r.cast.judge r.scheduler)
  (⟨s, c⟩, result.map (reply s))

/-- Go on with the item that is named, if it has been seen. -/
def withItem (r : Rehearsal) (queue : Nat) (item : Int)
    (next : ItemRef → Rehearsal × Except Fault Reply) : Rehearsal × Except Fault Reply :=
  match r.cast.find queue item with
  | .ok i => next i
  | .error f => (r, .error f)

/-- Go on if the queue is open. -/
def onQueue (r : Rehearsal) (queue : Nat) (next : Rehearsal × Except Fault Reply) :
    Rehearsal × Except Fault Reply :=
  if queue < r.scheduler.queues.length then next
  else (r, .error (.outside "IndexError" "list index out of range"))

/-- Nothing went wrong with these recipes: their parts; otherwise the first fault. -/
def buildParts (s : Scheduler) : List Recipe → Scheduler × Except Fault (List Part)
  | [] => (s, .ok [])
  | e :: es =>
    match s.buildLabel e with
    | (s', .error f) => (s', .error f)
    | (s', .ok p) =>
      let (s'', rest) := buildParts s' es
      (s'', rest.map (p :: ·))

/-- The blockers that a step names; policies join the cast. -/
def blockers (c : Cast) : List BlockerSpec → Cast × Except Fault (List Blocker)
  | [] => (c, .ok [])
  | b :: bs =>
    let (c', first) : Cast × Except Fault Blocker := match b with
      | .item q i => (c, (c.find q i).map .item)
      | .task t queued => (c, .ok (.task t queued))
      | .run id => (c, ((RunReference.ofId id).map .run).mapError .run)
      | .policy tag kind => let (c', p) := c.add (.policy tag kind); (c', .ok (.party p))
    match first with
    | .error f => (c', .error f)
    | .ok b =>
      let (c'', rest) := blockers c' bs
      (c'', rest.map (b :: ·))

/-- Let a listener join the cast and hear of a queue. -/
def listen (r : Rehearsal) (queue : Nat) (spec : ListenerSpec) : Rehearsal :=
  let (c, p) := r.cast.add (.listener (spec queue))
  ⟨r.scheduler.addListener queue p, c⟩

/-- Open a queue, with a listener of its own if one is given. -/
def openQueue (r : Rehearsal) (spec : Option ListenerSpec) : Rehearsal × Nat :=
  let number := r.scheduler.queues.length
  let opened : Rehearsal := { r with scheduler := r.scheduler.openQueue [] }
  ((spec.map (opened.listen number)).getD opened, number)

/-- The item as it is, in a state where it is known. -/
def itemReply (s : Scheduler) (i : ItemRef) : Reply := ((s.get? i).map .item).getD .nothing

/-- Submit an item: first the label is built, then the blockers, and then the queue is asked. -/
def submit (r : Rehearsal) (queue : Nat) (label : Recipe) (task : String)
    (specs : List BlockerSpec) : Rehearsal × Except Fault Reply :=
  match r.scheduler.buildLabel label with
  | (s, .error f) => ({ r with scheduler := s }, .error f)
  | (s, .ok part) =>
    match blockers r.cast specs with
    | (c, .error f) => (⟨s, c⟩, .error f)
    | (c, .ok bs) =>
      onQueue ⟨s, c⟩ queue <|
        match c.run (s.submit c.judge queue part task bs) with
        | (c', s', .error f) => (⟨s', c'⟩, .error f)
        | (c', s', .ok i) => (⟨s', c'.see i⟩, .ok (itemReply s' i))

/-- What a queue knows about a task and a run. -/
def query (s : Scheduler) (via : Nat) (task : String) (run : Option String)
    (excluded : Option Nat) : Except Fault Reply :=
  let q := s.queue via
  let reply := Reply.queried (q.isTaskBuilding task) (q.isTaskQueued task excluded)
  match run with
  | none => .ok (reply none)
  | some id =>
    match RunReference.ofId id with
    | .ok ref => .ok (reply (some (q.isRunBuilding ref)))
    | .error f => .error (.run f)

/-- The nodes that satisfy the label that a value is read as. -/
def matching (s : Scheduler) (label : Option Literal) : Scheduler × Except Fault Reply :=
  let answer := fun (s : Scheduler) (e : Option Label) =>
    Reply.matched ((s.pool.matching e).map Node.name) ((s.pool.idleMatching e).map Node.name)
      (!(s.pool.matching e).isEmpty)
  match label with
  | none => (s, .ok (answer s none))
  | some v => let (s', e) := s.parseLiteral v; (s', e.map fun e => answer s' (some e))

/-- The text of an assignment of an item. -/
def assignmentText (s : Scheduler) (queue id : Nat) : String :=
  ((((s.queue queue).get? id).bind Entrant.assignment).map Assignment.text).getD ""

/-- Take a step. -/
def take (r : Rehearsal) : Step → Rehearsal × Except Fault Reply
  | .register name labels =>
    match labels with
    | .text t => r.together (fun j s => s.register j name (.text t)) fun _ n => .node n
    | .parts rs =>
      match buildParts r.scheduler rs with
      | (s, .error f) => ({ r with scheduler := s }, .error f)
      | (s, .ok ps) =>
        together { r with scheduler := s } (fun j s => s.register j name (.parts ps))
          fun _ n => .node n
  | .remove name => r.alone (·.remove name) fun _ n => .node n
  | .get name =>
    (r, match r.scheduler.pool.find? name with
      | some n => .ok (.node n)
      | none => .error (.unknownNode name))
  | .find name =>
    let pool := r.scheduler.pool
    (r, .ok (.found (pool.find? name) (pool.find? name).isSome pool.nodes.length))
  | .setState name state => r.together (fun j s => s.setState j name state) fun _ _ => .nothing
  | .overrideState name state => r.alone (·.overrideState name state) fun _ _ => .nothing
  | .matching label => r.alone (matching · label) fun _ a => a
  | .submit queue label task specs => r.submit queue label task specs
  | .info queue item => r.withItem queue item fun i => (r, .ok (itemReply r.scheduler i))
  | .cancel via queue item =>
    r.withItem queue item fun i =>
      r.onQueue via (r.together (fun j s => s.cancel j via i) fun _ b => .flag b)
  | .withdraw queue item =>
    r.withItem queue item fun i => r.together (fun j s => s.cancel j i.queue i) fun _ b => .flag b
  | .started via queue item =>
    r.withItem queue item fun i => r.onQueue via (r.alone (·.started via i) fun _ _ => .nothing)
  | .completed via queue item =>
    r.withItem queue item fun i =>
      r.onQueue via (r.together (fun j s => s.completed j via i) fun _ _ => .nothing)
  | .maintain via =>
    r.onQueue via (r.together (fun j s => s.maintain j via) fun s made =>
      .texts (made.map (assignmentText s via)))
  | .why via queue item =>
    r.withItem queue item fun i =>
      r.onQueue via (r.alone (·.whyPending r.cast.judge via i) fun _ t => .text t)
  | .result queue item =>
    r.withItem queue item fun i =>
      (r, (r.scheduler.result i).map fun a => .text (some a.text))
  | .watch queue item tag =>
    r.withItem queue item fun i =>
      let (c, p) := r.cast.add (.watcher tag)
      (⟨r.scheduler.watch p i, c⟩, .ok .nothing)
  | .query via task run excluded => r.onQueue via (r, query r.scheduler via task run excluded)
  | .check label =>
    r.alone (·.checkDatum label) fun _ c => .text (some c.text)
  | .flag tag on =>
    let others := r.cast.flags.filter (· != tag)
    ({ r with cast := { r.cast with flags := if on then tag :: others else others } }, .ok .nothing)
  | .openQueue spec => let (r', n) := r.openQueue spec; (r', .ok (.number n))
  | .listen queue spec => r.onQueue queue (r.listen queue spec, .ok .nothing)
  | .subscribe tag nth =>
    let (c, p) := r.cast.add (.subscriber tag nth)
    (⟨r.scheduler.addSubscriber p, c⟩, .ok .nothing)
  | .unreadable f => (r, .error f)

/-- All items that are pending or building have been seen. -/
def seeAll (r : Rehearsal) : Rehearsal :=
  let refs := r.scheduler.queues.zipIdx.flatMap fun (q, n) =>
    (q.pending ++ q.building).map fun id => ⟨n, id⟩
  { r with cast := refs.foldl Cast.see r.cast }

/-- A step with what it left behind: the reply, what the parties heard and what was noted meanwhile,
in order, and the state after it. -/
structure Outcome where
  reply : Except Fault Reply
  heard : List Contact
  noted : List Event
  after : Rehearsal

/-- Take a step, counting what happened from the given places of the contacts and of the journal. -/
def observe (r : Rehearsal) (step : Step) (contacts events : Nat) : Outcome :=
  let (r', reply) := r.take step
  let s := r'.scheduler
  ⟨reply, s.contacts.reverse.drop contacts, s.journal.reverse.drop events, r'.seeAll⟩

/-- Take several steps; the first is also charged with what was noted before it. -/
def observeAll (r : Rehearsal) (contacts events : Nat) : List Step → List Outcome
  | [] => []
  | step :: steps =>
    let o := r.observe step contacts events
    let s := o.after.scheduler
    o :: o.after.observeAll s.contacts.length s.journal.length steps

/-- The nodes are registered and a queue is open on them, with a listener if one is given. -/
def start (nodes : List (String × String)) (listener : Option ListenerSpec) :
    Except Fault Rehearsal :=
  match Scheduler.registerAll nodes .empty with
  | (_, .error f) => .error f
  | (s, .ok _) => .ok (openQueue ⟨s, .empty⟩ listener).1

end Rehearsal

end LabelScheduler
