import LabelScheduler.Fault
import LabelScheduler.Pool
import LabelScheduler.Queue

/-!
# The state of the scheduler

A scheduler is a pool of nodes with the queues that draw on it. It also keeps, newest first, the
journal of its events and the contacts that it had with parties outside.
-/

namespace LabelScheduler

/-- A contact with an outside party: it was asked whether an item may go, it heard that an item was
assigned, that a promise was settled or that a node became available, or it reports what it did. -/
inductive Contact where
  | asked (p : Party) (item : ItemRef)
  | assigned (p : Party) (item : ItemRef) (a : Assignment) (state : ItemState) (settled : Bool)
  | settled (p : Party) (item : ItemRef) (state : ItemState) (node : Option String)
  | available (p : Party) (name : String) (state : NodeState)
  | cancelled (item : ItemRef) (success : Bool)
  | submitted (item : ItemRef) (state : ItemState)
  deriving DecidableEq

/-- A pool, its queues, and what has happened so far. -/
structure Scheduler where
  pool : Pool
  queues : List Queue
  journal : List Event
  contacts : List Contact
  deriving DecidableEq

namespace Scheduler

/-- Nothing is registered, nothing is queued and nothing has happened. -/
def empty : Scheduler := ⟨.empty, [], [], []⟩

/-- A queue by its number; one that was never opened is empty. -/
def queue (s : Scheduler) (q : Nat) : Queue := s.queues.getD q .empty

/-- An item by its queue and number. -/
def get? (s : Scheduler) (r : ItemRef) : Option Entrant := (s.queue r.queue).get? r.id

/-- Note an event. -/
def log (s : Scheduler) (e : Event) : Scheduler := { s with journal := e :: s.journal }

/-- Note several events. -/
def logAll (s : Scheduler) (es : List Event) : Scheduler := es.foldl log s

/-- Note a contact. -/
def record (s : Scheduler) (c : Contact) : Scheduler := { s with contacts := c :: s.contacts }

/-- Change the pool. -/
def withPool (s : Scheduler) (f : Pool → Pool) : Scheduler := { s with pool := f s.pool }

/-- Change a queue. -/
def withQueue (s : Scheduler) (q : Nat) (f : Queue → Queue) : Scheduler :=
  { s with queues := s.queues.modify q f }

/-- Put a registry in place, noting the atoms that are new. -/
def withRegistry (s : Scheduler) (r : Registry) : Scheduler :=
  (s.logAll (s.pool.registry.newAtoms r)).withPool fun p => { p with registry := r }

/-- Open a queue that hears of available nodes. -/
def openQueue (s : Scheduler) (listeners : List Party) : Scheduler :=
  let opened := { s with queues := s.queues ++ [{ Queue.empty with listeners := listeners }] }
  opened.withPool fun p => { p with subscribers := p.subscribers ++ [.queue s.queues.length] }

/-- Let a party hear of the assignments of a queue. -/
def addListener (s : Scheduler) (q : Nat) (p : Party) : Scheduler :=
  s.withQueue q fun queue => { queue with listeners := queue.listeners ++ [p] }

/-- Let a party hear of available nodes. -/
def addSubscriber (s : Scheduler) (p : Party) : Scheduler :=
  s.withPool fun pool => { pool with subscribers := pool.subscribers ++ [.party p] }

/-- Read a value as a label expression with the atoms of the pool. -/
def parseLiteral (s : Scheduler) (v : Literal) : Scheduler × Except Fault Label :=
  let (later, result) := s.pool.registry.parseLiteral v
  ((s.logAll (s.pool.registry.parseLiteralEvents v)).withPool fun p => { p with registry := later },
    result.mapError fun f => .label (.parse f))

/-- Read a label expression with the atoms of the pool. -/
def parse (s : Scheduler) (text : String) : Scheduler × Except Fault Label :=
  s.parseLiteral (.text text)

end Scheduler

end LabelScheduler
