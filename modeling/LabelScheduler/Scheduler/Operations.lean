import LabelScheduler.Scheduler.Dialogue
import LabelScheduler.Scheduler.Matching

/-!
# What can be asked of the scheduler

Nodes are registered, removed and taken or released; items are submitted, cancelled, started and
completed. Whatever may let a waiting item go is followed by matching: the new assignments are made
without anybody outside having a say, then their promises are kept, and then the listeners of the
queue hear of each of them, even if some of them fail. The first listener that failed gives the
fault of the operation; a fault of a blocker is reported if no listener failed.
-/

namespace LabelScheduler

/-- The atoms of a node to be registered: names in one text, or names and atoms one by one. -/
inductive NodeLabels where
  | text (s : String)
  | parts (ps : List Part)

namespace Registry

/-- The atom of a part of a list of atoms. -/
def internPart (r : Registry) : Part → Registry × Except RecipeFault String
  | .label e => (r, .error (.lacks (Part.label e).kind "strip"))
  | .atom n => let (r', a) := r.intern n; (r', (a.map (·.2)).mapError .name)
  | .plain d => let (r', a) := r.internDatum d; (r', (a.map (·.2)).mapError .name)

/-- The atoms of several parts; at the first that is no name the rest is left alone. -/
def internParts (r : Registry) : List Part → Registry × Except RecipeFault (List String)
  | [] => (r, .ok [])
  | p :: ps =>
    match r.internPart p with
    | (r', .error f) => (r', .error f)
    | (r', .ok n) =>
      let (r'', rest) := r'.internParts ps
      (r'', rest.map (n :: ·))

/-- The atoms of a node, its own name last. -/
def internLabels (r : Registry) (name : String) (labels : NodeLabels) :
    Registry × Except RecipeFault (List String) :=
  let (r', given) := match labels with
    | .text s => let (r', ns) := r.internFields (.text s); (r', ns.mapError RecipeFault.name)
    | .parts ps => r.internParts ps
  match given with
  | .error f => (r', .error f)
  | .ok ns =>
    let (r'', own) := r'.internPart (.plain (.text name))
    (r'', own.map fun n => ns ++ [n])

end Registry

namespace Scheduler

/-- Settle the promise of an item and let its watchers know. -/
def settle (s : Scheduler) (item : ItemRef) (p : Promise) : Scheduler :=
  match s.get? item with
  | none => s
  | some e =>
    (e.watchers.map fun w => Contact.settled w item e.state e.node).foldl record
      (s.withQueue item.queue (·.update item.id fun e => { e with promise := p }))

/-- Keep the promise of an item that was assigned. -/
def keepPromise (q : Nat) (s : Scheduler) (id : Nat) : Scheduler :=
  match (s.queue q).get? id with
  | some e =>
    match e.assignment with
    | some a =>
      (s.log (.itemAssigned id e.item.task.text a.node a.run.id)).settle ⟨q, id⟩ (.kept a)
    | none => s
  | none => s

/-- Note that a listener is told of an assignment. -/
def recordAssigned (s : Scheduler) (p : Party) (item : ItemRef) : Scheduler :=
  match s.get? item with
  | some e =>
    match e.assignment with
    | some a => s.record (.assigned p item a e.state e.isSettled)
    | none => s
  | none => s

/-- Note that a listener failed. -/
def logFailure (s : Scheduler) (item : ItemRef) (f : Fault) : Scheduler :=
  match s.get? item with
  | some e => s.log (.listenerFailed e.item.text (e.node.getD "") f.kind f.message)
  | none => s

/-- Tell listeners of assignments, one after the other; the first fault is that of the whole. -/
def tellListeners (q : Nat) : List (Nat × Party) → Option Fault → Scheduler → Dialogue Unit
  | [], none, s => .done s (.ok ())
  | [], some f, s => .done s (.error f)
  | (id, p) :: rest, first, s =>
    .tell (s.recordAssigned p ⟨q, id⟩) (.assigned p ⟨q, id⟩) fun s' answer =>
      match answer with
      | none => tellListeners q rest first s'
      | some f => tellListeners q rest (first.or (some f)) (s'.logFailure ⟨q, id⟩ f)

/-- Make the assignments public: keep the promises, then tell every listener of each assignment. -/
def announce (q : Nat) (made : List Nat) (s : Scheduler) : Dialogue Unit :=
  let kept := made.foldl (keepPromise q) s
  let listeners := (kept.queue q).listeners
  tellListeners q (made.flatMap fun id => listeners.map (id, ·)) none kept

/-- Match the items of a queue to nodes; the result lists the assignments in the order in which they
were made. -/
def maintain (judge : Judge) (q : Nat) (s : Scheduler) : Dialogue (List Nat) :=
  let m := matchItems judge q s
  (announce q m.made m.state).andThen fun s' _ =>
    match m.fault with
    | some f => .done s' (.error f)
    | none => .done s' (.ok m.made)

/-- Tell the subscribers that a node has become available. -/
def notify (judge : Judge) (node : Node) : List Subscriber → Scheduler → Dialogue Unit
  | [], s => .done s (.ok ())
  | .queue q :: rest, s => (maintain judge q s).andThen fun s' _ => notify judge node rest s'
  | .party p :: rest, s =>
    let now := (s.pool.registered? node.serial).getD node
    .tell (s.record (.available p now.name now.state)) (.available p now) fun s' answer =>
      match answer with
      | some f => .done s' (.error f)
      | none => notify judge node rest s'

/-- Register a node; the result is the node as it is when all subscribers know of it. -/
def register (judge : Judge) (name : String) (labels : NodeLabels) (s : Scheduler) :
    Dialogue Node :=
  match s.pool.registry.internLabels name labels with
  | (r, .error f) => .done (s.withRegistry r) (.error (.label f))
  | (r, .ok atoms) =>
    let s₁ := s.withRegistry r
    match s₁.pool.find? name with
    | some _ => .done s₁ (.error (.duplicateNode name))
    | none =>
      let node := Node.fresh name atoms s₁.pool.enrolled
      let s₂ := (s₁.withPool (·.add name atoms)).log (.nodeRegistered name node.labelsText)
      (notify judge node s₂.pool.subscribers s₂).returning fun s₃ =>
        (s₃.pool.registered? node.serial).getD node

/-- Register several nodes, by name and labels, while outside parties only listen. -/
def registerAll : List (String × String) → Scheduler → Scheduler × Except Fault Unit
  | [], s => (s, .ok ())
  | (name, labels) :: rest, s =>
    match (s.register .lenient name (.text labels)).playSilent with
    | (s', .ok _) => registerAll rest s'
    | (s', .error f) => (s', .error f)

/-- Remove a node; what it holds stays with whoever runs it. -/
def remove (name : String) (s : Scheduler) : Scheduler × Except Fault Node :=
  match s.pool.find? name with
  | none => (s, .error (.unknownNode name))
  | some n =>
    let warning := n.holds.toList.map fun (i : Nat) => Event.nodeRemovedRunning name i
    ((s.withPool (·.drop name)).logAll (warning ++ [.nodeRemoved name]), .ok n)

/-- Take or release a node from outside; one that holds an item is not released this way. -/
def setState (judge : Judge) (name : String) (state : NodeState) (s : Scheduler) : Dialogue Unit :=
  match s.pool.find? name with
  | none => .done s (.error (.unknownNode name))
  | some n =>
    match state, n.holds with
    | .idle, some i => .done s (.error (.nodeBusy name i))
    | _, _ =>
      let s₁ := (s.withPool (·.update name fun n => { n with state := state })).log
        (.nodeStateChanged name n.state.name state.name)
      if state = .idle then notify judge { n with state := .idle } s₁.pool.subscribers s₁
      else .done s₁ (.ok ())

/-- Set the state of a node without telling anyone. -/
def overrideState (name : String) (state : NodeState) (s : Scheduler) :
    Scheduler × Except Fault Unit :=
  match s.pool.find? name with
  | none => (s, .error (.unknownNode name))
  | some _ => (s.withPool (·.update name fun n => { n with state := state }), .ok ())

/-- The label that a submission asks for; a blank text asks for none. -/
def readLabel (s : Scheduler) : Part → Scheduler × Except Fault (Option Label)
  | .plain .none => (s, .ok none)
  | .plain (.text t) =>
    if Text.isBlankText t then (s, .ok none)
    else let (s', e) := s.parse t; (s', e.map some)
  | p => (s, (p.toLabel.map some).mapError .label)

/-- The task of an item that was submitted without one. -/
def defaultTask (id : Nat) : String := "item-" ++ toString id

/-- The name of the task that an item is submitted with. -/
def taskNamed (task : String) (id : Nat) : Option TaskName :=
  let name := if task.isEmpty then defaultTask id else task
  if h : isTaskName name then some ⟨name, h⟩ else none

/-- Submit an item. -/
def submit (judge : Judge) (q : Nat) (label : Part) (task : String) (blockers : List Blocker)
    (s : Scheduler) : Dialogue ItemRef :=
  match s.readLabel label with
  | (s₁, .error f) => .done s₁ (.error f)
  | (s₁, .ok e) =>
    let id := (s₁.queue q).nextId
    match taskNamed task id with
    | none => .done s₁ (.error (.taskName task))
    | some name =>
      let item : Item := ⟨id, name, e, blockers⟩
      let s₂ := (s₁.withQueue q (·.add item)).log (.itemSubmitted id name.text item.labelName)
      (maintain judge q s₂).returning fun _ => ⟨q, id⟩

/-- The item is pending in this queue. -/
def isPendingIn (s : Scheduler) (q : Nat) (item : ItemRef) : Bool :=
  item.queue == q && (s.queue q).pending.contains item.id &&
    (s.get? item).any (·.state == .pending)

/-- The item is building in this queue. -/
def isBuildingIn (s : Scheduler) (q : Nat) (item : ItemRef) : Bool :=
  item.queue == q && (s.queue q).building.contains item.id

/-- Cancel an item that is still pending in the queue; the result says whether it was. -/
def cancel (judge : Judge) (q : Nat) (item : ItemRef) (s : Scheduler) : Dialogue Bool :=
  if s.isPendingIn q item then
    let s₁ := (s.withQueue q (·.withdraw item.id)).log (.itemCancelled item.id true)
    (maintain judge q (s₁.settle item .withdrawn)).returning fun _ => true
  else .done (s.log (.itemCancelled item.id false)) (.ok false)

/-- The fault of reporting on an item that is not building in the queue. -/
def notBuilding (s : Scheduler) (item : ItemRef) : Fault :=
  .unknownItem (((s.get? item).map (·.item.text)).getD "")

/-- Report that the work on an item has begun. -/
def started (q : Nat) (item : ItemRef) (s : Scheduler) : Scheduler × Except Fault Unit :=
  if s.isBuildingIn q item then (s.withQueue q (·.start item.id), .ok ())
  else (s, .error (s.notBuilding item))

/-- Free the node that an item was given to, if the node of that name holds it. -/
def releaseNode (s : Scheduler) (item : Nat) (name : String) : Scheduler :=
  if s.pool.isHolding name item then
    (s.withPool (·.release name item)).log
      (.nodeStateChanged name NodeState.busy.name NodeState.idle.name)
  else s

/-- Report that the work on an item has ended. -/
def completed (judge : Judge) (q : Nat) (item : ItemRef) (s : Scheduler) : Dialogue Unit :=
  if s.isBuildingIn q item then
    let node := (s.get? item).bind Entrant.node
    let s₁ := s.withQueue q (·.complete item.id)
    let s₂ := (node.map (s₁.releaseNode item.id)).getD s₁
    (maintain judge q (s₂.log (.itemCompleted item.id node))).returning fun _ => ()
  else .done s (.error (s.notBuilding item))

/-- Let a party know when the promise of an item is settled, at once if it already is. -/
def watch (p : Party) (item : ItemRef) (s : Scheduler) : Scheduler :=
  match s.get? item with
  | none => s
  | some e =>
    if e.isSettled then s.record (.settled p item e.state e.node)
    else s.withQueue item.queue (·.update item.id fun e => { e with watchers := e.watchers ++ [p] })

/-- The promised assignment of an item, as far as it is known. -/
def result (s : Scheduler) (item : ItemRef) : Except Fault Assignment :=
  match (s.get? item).map Entrant.promise with
  | some (.kept a) => .ok a
  | some .withdrawn => .error .withdrawn
  | _ => .error .stillPending

/-- Why an item is still waiting in a queue; nothing if it is not. -/
def whyPending (judge : Judge) (q : Nat) (item : ItemRef) (s : Scheduler) :
    Scheduler × Except Fault (Option String) :=
  match s.get? item with
  | none => (s, .ok none)
  | some e =>
    if e.state ≠ .pending then (s, .ok none)
    else
      match s.ask judge q item e.item.blockers with
      | (s', .failed f) => (s', .error f)
      | (s', .held r) => (s', .ok (some ("Blocked: " ++ r)))
      | (s', .free) =>
        let name := e.item.labelName.getD "any node"
        (s', .ok (some (
          if (s'.pool.matching e.item.label).isEmpty then
            "There are no nodes with the label '" ++ name ++ "'"
          else if (s'.pool.idleMatching e.item.label).isEmpty then
            "Waiting for next available executor on " ++ name
          else "Waiting behind earlier items for a matching node")))

end Scheduler

end LabelScheduler
