import LabelScheduler.Item
import LabelScheduler.Node
import LabelScheduler.Registry

/-!
# The pool of nodes

The pool keeps its nodes in the order of their registration, the registry that their atoms come
from, and the list of those who want to hear of every node that becomes available. No two nodes of a
pool have the same name.
-/

namespace LabelScheduler

/-- Who hears of nodes that become available: a queue, by its number, or an outside party. -/
inductive Subscriber where
  | queue (q : Nat)
  | party (p : Party)
  deriving DecidableEq

/-- The registered nodes; `enrolled` counts all registrations so far. -/
structure Pool where
  registry : Registry
  nodes : List Node
  subscribers : List Subscriber
  enrolled : Nat
  deriving DecidableEq

namespace Pool

/-- A pool without nodes. -/
def empty : Pool := ⟨.empty, [], [], 0⟩

/-- The node of a given name. -/
def find? (p : Pool) (name : String) : Option Node := p.nodes.find? (·.name == name)

/-- The node of a given registration. -/
def registered? (p : Pool) (serial : Nat) : Option Node := p.nodes.find? (·.serial == serial)

/-- The nodes that can take an item. -/
def idle (p : Pool) : List Node := p.nodes.filter Node.isIdle

/-- The nodes that satisfy a label. -/
def matching (p : Pool) (label : Option Label) : List Node := p.nodes.filter (·.meets label)

/-- The nodes that satisfy a label and can take an item. -/
def idleMatching (p : Pool) (label : Option Label) : List Node :=
  p.nodes.filter fun n => n.isIdle && n.meets label

/-- The pool with a new node at its end. -/
def add (p : Pool) (name : String) (labels : List String) : Pool :=
  { p with nodes := p.nodes ++ [.fresh name labels p.enrolled], enrolled := p.enrolled + 1 }

/-- The pool without the node of a given name. -/
def drop (p : Pool) (name : String) : Pool :=
  { p with nodes := p.nodes.filter (·.name != name) }

/-- Change the node of a given name. -/
def update (p : Pool) (name : String) (f : Node → Node) : Pool :=
  { p with nodes := p.nodes.map fun n => if n.name = name then f n else n }

/-- Give an item to a node. -/
def occupy (p : Pool) (name : String) (item : Nat) : Pool :=
  p.update name fun n => { n with state := .busy, holds := some item }

/-- The item is the one that the node of this name holds. -/
def isHolding (p : Pool) (name : String) (item : Nat) : Bool :=
  ((p.find? name).bind Node.holds) == some item

/-- Free the node of a given name, if it holds this item. -/
def release (p : Pool) (name : String) (item : Nat) : Pool :=
  if p.isHolding name item then p.update name fun n => { n with state := .idle, holds := none }
  else p

end Pool

end LabelScheduler
