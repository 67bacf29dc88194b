import LabelScheduler.Scheduler.Blocking

/-!
# Matching items to nodes

A match pass goes through the nodes that are idle at its start, in the order of their registration,
and gives each the earliest pending item that is not held back and whose label the node satisfies.
Passes are repeated until one makes no assignment. Within a pass an item that was found held back or
free is not asked again until an assignment is made.
-/

namespace LabelScheduler

/-- What matching leaves behind: the new state, the items that were assigned, in order, and the
fault of a blocker that ended it. -/
structure Matched where
  state : Scheduler
  made : List Nat
  fault : Option Fault

/-- The answers that blockers gave since the last assignment: items and what holds them back. -/
abbrev Answers := List (Nat × Option String)

namespace Scheduler

/-- What holds an item back, from the answers so far or by asking; a fault if a blocker fails. -/
def heldBy (judge : Judge) (q : Nat) (s : Scheduler) (known : Answers) (e : Entrant) :
    Scheduler × Except Fault (Answers × Option String) :=
  match known.find? (·.1 == e.item.id) with
  | some a => (s, .ok (known, a.2))
  | none =>
    match s.ask judge q ⟨q, e.item.id⟩ e.item.blockers with
    | (s', .failed f) => (s', .error f)
    | (s', .free) => (s', .ok ((e.item.id, none) :: known, none))
    | (s', .held r) =>
      (s'.log (.itemBlocked e.item.id r), .ok ((e.item.id, some r) :: known, some r))

/-- The first of the items that nothing holds back and whose label the node satisfies. -/
def select (judge : Judge) (q : Nat) (node : Node) (s : Scheduler) (known : Answers) :
    List Entrant → Scheduler × Except Fault (Answers × Option Entrant)
  | [] => (s, .ok (known, none))
  | e :: es =>
    match s.heldBy judge q known e with
    | (s', .error f) => (s', .error f)
    | (s', .ok (known', held)) =>
      if held.isNone && node.meets e.item.label then (s', .ok (known', some e))
      else s'.select judge q node known' es

/-- Give an item to a node. -/
def assign (s : Scheduler) (q : Nat) (node : Node) (e : Entrant) : Scheduler :=
  let a : Assignment := ⟨node.name, node.serial, (s.queue q).nextRun e.item.task⟩
  ((s.withQueue q (·.assign e.item.id a)).withPool (·.occupy node.name e.item.id)).log
    (.nodeStateChanged node.name NodeState.idle.name NodeState.busy.name)

/-- One match pass over the given nodes. -/
def matchNodes (judge : Judge) (q : Nat) : List Node → Scheduler → Answers → Matched
  | [], s, _ => ⟨s, [], none⟩
  | n :: ns, s, known =>
    if (s.queue q).pending.isEmpty then ⟨s, [], none⟩
    else
      match s.select judge q n known (s.queue q).pendingEntrants with
      | (s', .error f) => ⟨s', [], some f⟩
      | (s', .ok (known', none)) => matchNodes judge q ns s' known'
      | (s', .ok (_, some e)) =>
        let rest := matchNodes judge q ns (s'.assign q n e) []
        { rest with made := e.item.id :: rest.made }

/-- One match pass, the `k`-th, over the nodes that are idle now. -/
def matchPass (judge : Judge) (q k : Nat) (s : Scheduler) : Matched :=
  let idle := s.pool.idle
  let queue := s.queue q
  matchNodes judge q idle
    (s.log (.matchPass k idle.length queue.pending.length queue.building.length)) []

/-- At most `limit` match passes, the first being the `k`-th, until one makes no assignment. -/
def matchPasses (judge : Judge) (q : Nat) : (limit : Nat) → Nat → Scheduler → Matched
  | 0, _, s => ⟨s, [], none⟩
  | limit + 1, k, s =>
    let m := matchPass judge q k s
    if m.fault.isSome || m.made.isEmpty then m
    else
      let rest := matchPasses judge q limit (k + 1) m.state
      { rest with made := m.made ++ rest.made }

/-- Match passes until one makes no assignment; each of the others takes an item from the pending
ones, so there is one more pass than pending items at the most. -/
def matchItems (judge : Judge) (q : Nat) (s : Scheduler) : Matched :=
  matchPasses judge q ((s.queue q).pending.length + 1) 1 s

end Scheduler

end LabelScheduler
