import LabelScheduler.Label.Basic
import LabelScheduler.Text.NameOrder

/-!
# What label expressions mean

An atom holds of a set of atoms when it belongs to it, and the connectives are two-valued. Two
expressions are equivalent when they agree on every set of the atoms that they mention. Evaluation is
total: that an interpreter limits how deep recursion may go, and so how deeply an expression may be
nested, is outside the model.
-/

namespace LabelScheduler

/-- The truth value of a connective. -/
def Connective.eval : Connective → Bool → Bool → Bool
  | .and, a, b => a && b
  | .or, a, b => a || b
  | .implies, a, b => !a || b
  | .iff, a, b => a == b

namespace Label

/-- The expression holds of the atoms that `has` says yes to. -/
def holds (has : String → Bool) : Label → Bool
  | .atom n _ => has n
  | .not b _ => !holds has b
  | .binary op l r _ => op.eval (holds has l) (holds has r)

/-- The distinct atoms of an expression in order. -/
def atoms (e : Label) : List String := Text.sortNames e.atomNames

end Label

/-- Everything satisfies no label; a label is satisfied by the sets of atoms that it holds of. -/
def satisfies (label : Option Label) (atoms : List String) : Bool :=
  match label with
  | none => true
  | some e => e.holds atoms.contains

/-- All sublists of `names`, those without its head first. -/
def assignments : List String → List (List String)
  | [] => [[]]
  | n :: ns => assignments ns ++ (assignments ns).map (n :: ·)

namespace Label

/-- The value of an expression for each set of the distinct `names`, in the order in which
the last name varies fastest. -/
def truthTable (e : Label) (names : List String) : List (List String × Bool) :=
  (assignments (Text.sortNames names)).map fun set => (set, e.holds set.contains)

/-- The two expressions have the same value for every set of the atoms of both. -/
def equivalent (a b : Label) : Bool :=
  let names := a.atomNames ++ b.atomNames
  a.truthTable names == b.truthTable names

end Label

end LabelScheduler
