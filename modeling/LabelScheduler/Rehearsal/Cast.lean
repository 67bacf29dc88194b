import LabelScheduler.Dispatcher

/-!
# Scripted parties

In a rehearsal the outside parties follow scripts: listeners that start, complete, cancel or submit
items or fail, policies that hold items back, watchers of promises and subscribers of the pool. What
a listener does on the scheduler is an operation again, in which all parties have their say. A
dispatcher can take part as well.
-/

namespace LabelScheduler

/-- What a scripted listener does when it is told of an assignment. -/
inductive Act where
  | note
  | fail
  | start
  | complete
  | cancel (item : Int)
  | submit (label : Recipe) (task : String)

/-- A listener of a queue: it acts on assignments of one task, if given, and of those only on the
`nth`, if given. -/
structure Listener where
  queue : Nat
  tag : String
  task : Option String
  nth : Option Nat
  act : Act

/-- When a scripted policy holds an item back. -/
inductive PolicyKind where
  | always
  | never
  | whenFlagged
  | failsUnlessFlagged

/-- A scripted party. -/
inductive Role where
  | listener (l : Listener)
  | policy (tag : String) (kind : PolicyKind)
  | watcher (tag : String)
  | subscriber (tag : String) (nth : Option Nat)
  | dispatcher

/-- The tag of a scripted party. -/
def Role.tag : Role → String
  | .listener l => l.tag
  | .policy t _ => t
  | .watcher t => t
  | .subscriber t _ => t
  | .dispatcher => ""

/-- The parties of a rehearsal, how often each was called so far, the flags that are set, the items
that have been seen and the work that was dispatched. -/
structure Cast where
  roles : List Role
  calls : List Nat
  flags : List String
  known : List ItemRef
  dispatcher : Dispatcher

namespace Cast

/-- Nobody takes part. -/
def empty : Cast := ⟨[], [], [], [], .initial⟩

/-- Let another party take part; the number is its own. -/
def add (c : Cast) (r : Role) : Cast × Party :=
  ({ c with roles := c.roles ++ [r], calls := c.calls ++ [0] }, c.roles.length)

/-- The tag of a party. -/
def tag (c : Cast) (p : Party) : String := (c.roles[p]?.map Role.tag).getD ""

/-- Count a call of a party; the number of its calls, this one included. -/
def count (c : Cast) (p : Party) : Cast × Nat :=
  ({ c with calls := c.calls.modify p (· + 1) }, c.calls.getD p 0 + 1)

/-- An item has been seen. -/
def see (c : Cast) (item : ItemRef) : Cast :=
  if item ∈ c.known then c else { c with known := c.known ++ [item] }

/-- The item of a given queue and number, if it has been seen. -/
def find (c : Cast) (queue : Nat) (item : Int) : Except Fault ItemRef :=
  if 0 ≤ item ∧ ⟨queue, item.toNat⟩ ∈ c.known then .ok ⟨queue, item.toNat⟩
  else .error (.outside "NoSuchHandle" (toString queue ++ ":" ++ toString item))

/-- What the scripted policies answer. -/
def judge (c : Cast) : Judge := fun p _ _ =>
  match c.roles[p]? with
  | some (.policy tag .always) => .held ("held by " ++ tag)
  | some (.policy tag .whenFlagged) => if tag ∈ c.flags then .held ("held by " ++ tag) else .free
  | some (.policy tag .failsUnlessFlagged) =>
    if tag ∈ c.flags then .free else .failed (.outside "RuntimeError" ("policy " ++ tag))
  | _ => .free

end Cast

/-- The answer of a party that only ever succeeds or fails. -/
def Except.fault? {α : Type} : Except Fault α → Option Fault
  | .ok _ => none
  | .error f => some f

namespace Scheduler

/-- Carry out the recipe of a label against the registry of the pool. -/
def buildLabel (s : Scheduler) (r : Recipe) : Scheduler × Except Fault Part :=
  let b := r.build s.pool.registry
  ((s.logAll b.events).withPool fun p => { p with registry := b.registry },
    b.outcome.mapError .label)

/-- Build a label and submit an item with it. -/
def submitBuilt (judge : Judge) (q : Nat) (label : Recipe) (task : String)
    (blockers : List Blocker) (s : Scheduler) : Dialogue ItemRef :=
  match s.buildLabel label with
  | (s', .error f) => .done s' (.error f)
  | (s', .ok p) => submit judge q p task blockers s'

end Scheduler

namespace Cast

/-- The answers of outside parties who remember a cast. -/
abbrev Response := Cast → Scheduler → News → Cast × Scheduler × Option Fault

/-- What a listener does, once it is its turn to act on an item. -/
def perform (nested : Response) (judge : Judge) (l : Listener) (item : ItemRef) (c : Cast)
    (s : Scheduler) : Cast × Scheduler × Option Fault :=
  match l.act with
  | .note => (c, s, none)
  | .fail => (c, s, some (.outside "RuntimeError" ("listener " ++ l.tag)))
  | .start =>
    let (s', r) := s.started l.queue item
    (c, s', Except.fault? r)
  | .complete =>
    let (c', s', r) := (s.completed judge l.queue item).play nested c
    (c', s', Except.fault? r)
  | .cancel i =>
    match c.find l.queue i with
    | .error f => (c, s, some f)
    | .ok other =>
      match (s.cancel judge l.queue other).play nested c with
      | (c', s', .ok b) => (c', s'.record (.cancelled other b), none)
      | (c', s', .error f) => (c', s', some f)
  | .submit label task =>
    match (s.submitBuilt judge l.queue label task []).play nested c with
    | (c', s', .ok new) =>
      let state := ((s'.get? new).map Entrant.state).getD .pending
      (c'.see new, s'.record (.submitted new state), none)
    | (c', s', .error f) => (c', s', some f)

/-- A listener hears of an assignment. -/
def hear (nested : Response) (judge : Judge) (p : Party) (l : Listener) (item : ItemRef) (c : Cast)
    (s : Scheduler) : Cast × Scheduler × Option Fault :=
  let c := c.see item
  let task := ((s.get? item).map (·.item.task.text)).getD ""
  if l.task.any (· != task) then (c, s, none)
  else
    let (c, n) := c.count p
    if l.nth.any (· != n) then (c, s, none) else perform nested judge l item c s

/-- The answers of the scripted parties, when listeners may set off each other `depth` times. -/
def respond (judge : Judge) : (depth : Nat) → Response
  | 0 => fun c s _ =>
    (c, s, some (.outside "RecursionError" "maximum recursion depth exceeded"))
  | depth + 1 => fun c s news =>
    match news with
    | .assigned p item =>
      match c.roles[p]? with
      | some (.listener l) => hear (respond judge depth) judge p l item c s
      | some .dispatcher =>
        let (d, fault) := c.dispatcher.accept item
        ({ c with dispatcher := d }, s, fault)
      | _ => (c, s, none)
    | .available p _ =>
      match c.roles[p]? with
      | some (.subscriber tag nth) =>
        let (c, n) := c.count p
        let fault := Fault.outside "RuntimeError" ("pool listener " ++ tag)
        (c, s, if nth = some n then some fault else none)
      | _ => (c, s, none)

/-- How often listeners may set off each other within one operation. -/
def nestingLimit : Nat := 1000

/-- Carry out an operation with the scripted parties. -/
def run {α : Type} (c : Cast) (d : Dialogue α) : Cast × Scheduler × Except Fault α :=
  d.play (respond c.judge nestingLimit) c

end Cast

end LabelScheduler
