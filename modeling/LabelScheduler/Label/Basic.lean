/-!
# Label expressions

A label expression is a boolean formula over atoms, the names of tags that nodes carry. Each part
remembers whether it was written in parentheses: the mark shows when the expression is written again
and never changes what it means.
-/

namespace LabelScheduler

/-- The binary connectives, from the tightest to the loosest. -/
inductive Connective where
  | and
  | or
  | implies
  | iff
  deriving DecidableEq

/-- What stands at the root of a label expression. -/
inductive Operator where
  | atom
  | not
  | binary (c : Connective)
  deriving DecidableEq

/-- A label expression; `grouped` marks the parts written in parentheses. -/
inductive Label where
  | atom (name : String) (grouped : Bool)
  | not (body : Label) (grouped : Bool)
  | binary (op : Connective) (left right : Label) (grouped : Bool)
  deriving DecidableEq

namespace Operator

/-- All operators, from the tightest to the loosest. -/
def all : List Operator :=
  [.atom, .not, .binary .and, .binary .or, .binary .implies, .binary .iff]

/-- The name of an operator. -/
def name : Operator → String
  | .atom => "ATOM"
  | .not => "NOT"
  | .binary .and => "AND"
  | .binary .or => "OR"
  | .binary .implies => "IMPLIES"
  | .binary .iff => "IFF"

/-- How loosely an operator binds; smaller numbers bind tighter. -/
def precedence : Operator → Nat
  | .atom => 0
  | .not => 1
  | .binary .and => 2
  | .binary .or => 3
  | .binary .implies => 4
  | .binary .iff => 5

/-- The written symbol of an operator; an atom is written by its name alone. -/
def symbol : Operator → String
  | .atom => ""
  | .not => "!"
  | .binary .and => "&&"
  | .binary .or => "||"
  | .binary .implies => "->"
  | .binary .iff => "<->"

/-- The number of operands. -/
def arity : Operator → Nat
  | .atom => 0
  | .not => 1
  | .binary _ => 2

end Operator

namespace Label

/-- The operator at the root. -/
def operator : Label → Operator
  | .atom _ _ => .atom
  | .not _ _ => .not
  | .binary op _ _ _ => .binary op

/-- Whether the whole expression was written in parentheses. -/
def grouped : Label → Bool
  | .atom _ g => g
  | .not _ g => g
  | .binary _ _ _ g => g

/-- The same expression, marked as written in parentheses. -/
def group : Label → Label
  | .atom n _ => .atom n true
  | .not b _ => .not b true
  | .binary op l r _ => .binary op l r true

/-- The operands of the root, from left to right. -/
def operands : Label → List Label
  | .atom _ _ => []
  | .not b _ => [b]
  | .binary _ l r _ => [l, r]

/-- The expression and all its parts, each before its operands. -/
def walk : Label → List Label
  | .atom n g => [.atom n g]
  | .not b g => .not b g :: walk b
  | .binary op l r g => .binary op l r g :: (walk l ++ walk r)

/-- The names of the atoms, from left to right and with repetitions. -/
def atomNames : Label → List String
  | .atom n _ => [n]
  | .not b _ => atomNames b
  | .binary _ l r _ => atomNames l ++ atomNames r

end Label

end LabelScheduler
