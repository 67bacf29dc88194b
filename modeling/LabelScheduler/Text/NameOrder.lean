/-!
# Names in order

A set of names is kept as a list in strictly increasing order of code points.
-/

namespace LabelScheduler.Text

/-- Put a name into an increasing list, unless it is there. -/
def insertName (n : String) : List String → List String
  | [] => [n]
  | m :: ms =>
    if n < m then n :: m :: ms
    else if n = m then m :: ms
    else m :: insertName n ms

/-- The distinct names of a list in increasing order. -/
def sortNames (ns : List String) : List String := ns.foldr insertName []

end LabelScheduler.Text
