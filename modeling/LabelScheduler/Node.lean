import LabelScheduler.Label.Meaning

/-!
# Nodes

A node runs one item at a time. It carries a set of atoms, kept in order, and holds the item that it
was given until that item completes.
-/

namespace LabelScheduler

/-- Whether a node can take an item. -/
inductive NodeState where
  | idle
  | busy
  deriving DecidableEq

/-- The state in words. -/
def NodeState.name : NodeState → String
  | .idle => "IDLE"
  | .busy => "BUSY"

/-- A node; `serial` tells registrations under one name apart, and `holds` is the item it was given.
-/
structure Node where
  name : String
  labels : List String
  state : NodeState
  holds : Option Nat
  serial : Nat
  deriving DecidableEq

namespace Node

/-- A node that has just been registered. -/
def fresh (name : String) (labels : List String) (serial : Nat) : Node :=
  ⟨name, Text.sortNames labels, .idle, none, serial⟩

/-- The node can take an item. -/
def isIdle (n : Node) : Bool := n.state == .idle

/-- The node carries an atom. -/
def hasLabel (n : Node) (atom : String) : Bool := n.labels.contains atom

/-- The atoms of a node as one text. -/
def labelsText (n : Node) : String := " ".intercalate n.labels

/-- The node satisfies a label. -/
def meets (n : Node) (label : Option Label) : Bool := satisfies label n.labels

/-- The node with its state. -/
def text (n : Node) : String := n.name ++ "[" ++ n.state.name ++ "]"

end Node

end LabelScheduler
