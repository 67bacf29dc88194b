import LabelScheduler.Fault

/-!
# Calls to a registry

A registry gives the atom of a name, the atoms of several names or of the fields of a text, looks a name up, lists its
names and reads expressions. Any value may stand where a name, several names or a text is expected. A call that fails
says why, and what it did to the registry before it failed stays.
-/

namespace LabelScheduler

/-- The values in another one, in order: those of a list, the characters of a text and the keys of a dictionary. -/
def Literal.elements? : Literal → Option (List Datum)
  | .list vs => some (vs.map datum)
  | .text s => some (s.toList.map fun c => .text c.toString)
  | .dictionary es => some (es.map fun e => .text e.1)
  | _ => Option.none

namespace Registry

/-- What a registry can be asked for. -/
inductive Call where
  | atom (name : Datum)
  | atoms (names : Literal)
  | fields (labels : Datum)
  | get (name : Datum)
  | contains (name : Datum)
  | names
  | parse (text : Literal)

/-- What a call gives; atoms are given by their places and names. -/
inductive Answer where
  | atom (place : Nat) (name : String)
  | atoms (names : List String)
  | found (atom : Option (Nat × String))
  | contained (b : Bool)
  | names (ns : List String)
  | label (e : Label)
  deriving DecidableEq

/-- Why a call fails. -/
inductive CallFault where
  | name (f : NameFault)
  | parse (f : ParseFault)
  | notIterable (kind : String)
  | unhashable (kind : String)
  deriving DecidableEq

namespace CallFault

/-- The kind of a fault. -/
def kind : CallFault → String
  | .name f => (RecipeFault.name f).kind
  | .parse f => (RecipeFault.parse f).kind
  | .notIterable _ | .unhashable _ => "TypeError"

/-- The fault in words. -/
def message : CallFault → String
  | .name f => f.message
  | .parse f => f.message
  | .notIterable k => "'" ++ k ++ "' object is not iterable"
  | .unhashable k => "unhashable type: '" ++ k ++ "'"

end CallFault

/-- The atom of a name, if it was made; values that are no texts have none. -/
def lookUp (r : Registry) : Datum → Except CallFault (Option (Nat × String))
  | .text n => .ok ((r.find? n).map (·, n))
  | .list => .error (.unhashable Datum.list.kind)
  | .dictionary => .error (.unhashable Datum.dictionary.kind)
  | _ => .ok none

/-- The registry after a call, and what the call gives. -/
def perform (r : Registry) : Call → Registry × Except CallFault Answer
  | .atom d =>
    let given := r.internDatum d
    (given.1, (given.2.map fun a => .atom a.1 a.2).mapError .name)
  | .atoms v =>
    match v.elements? with
    | none => (r, .error (.notIterable v.datum.kind))
    | some ds =>
      let given := r.internAll ds
      (given.1, (given.2.map .atoms).mapError .name)
  | .fields d =>
    let given := r.internFields d
    (given.1, (given.2.map .atoms).mapError .name)
  | .get d => (r, (r.lookUp d).map .found)
  | .contains d => (r, (r.lookUp d).map fun atom => .contained atom.isSome)
  | .names => (r, .ok (.names r.sortedNames))
  | .parse v =>
    let read := r.parseLiteral v
    (read.1, (read.2.map .label).mapError .parse)

/-- The registry after calls, one after another. -/
def after (r : Registry) (calls : List Call) : Registry := calls.foldl (fun r c => (r.perform c).1) r

end Registry

end LabelScheduler
