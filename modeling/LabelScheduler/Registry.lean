import LabelScheduler.Journal
import LabelScheduler.Literal
import LabelScheduler.Text.Blank
import LabelScheduler.Text.NameOrder

/-!
# The registry of atoms

A registry gives each name a single atom, made when the name is first used and never removed. Atoms
are known by the place at which they were made. Names hold no blanks; those around a name are
ignored.
-/

namespace LabelScheduler

/-- Why a name is no name of an atom. -/
inductive NameFault where
  | empty
  | hasBlank (name : String)
  | notText (kind action : String)
  deriving DecidableEq

/-- The fault in words. -/
def NameFault.message : NameFault → String
  | .empty => "Label atom name must not be empty"
  | .hasBlank n => "Label atom name must not contain whitespace: " ++ Text.quoted n
  | .notText k a => "'" ++ k ++ "' object has no attribute '" ++ a ++ "'"

/-- The names that have an atom, in the order in which the atoms were made. -/
structure Registry where
  names : List String
  deriving DecidableEq

namespace Registry

/-- No atom has been made. -/
def empty : Registry := ⟨[]⟩

/-- The registry after a name was used. -/
def add (r : Registry) (n : String) : Registry := if n ∈ r.names then r else ⟨r.names ++ [n]⟩

/-- The registry after several names were used. -/
def addAll (r : Registry) (ns : List String) : Registry := ns.foldl add r

/-- The place of the atom of a name. -/
def find? (r : Registry) (n : String) : Option Nat := r.names.idxOf? n

/-- The name of an atom as it is kept, unless it cannot be one. -/
def checkName (n : String) : Except NameFault String :=
  let t := Text.trim n
  if t.isEmpty then .error .empty
  else if Text.hasBlank t then .error (.hasBlank t)
  else .ok t

/-- The atom of a name, made if need be: its place and its name. -/
def intern (r : Registry) (n : String) : Registry × Except NameFault (Nat × String) :=
  match checkName n with
  | .error f => (r, .error f)
  | .ok t => (r.add t, .ok ((r.add t).names.idxOf t, t))

/-- The atom of a value that should be a name. -/
def internDatum (r : Registry) : Datum → Registry × Except NameFault (Nat × String)
  | .text s => r.intern s
  | d => (r, .error (.notText d.kind "strip"))

/-- The atoms of several names; at the first that is no name the rest is left alone. -/
def internAll (r : Registry) : List Datum → Registry × Except NameFault (List String)
  | [] => (r, .ok [])
  | d :: ds =>
    match r.internDatum d with
    | (r', .error f) => (r', .error f)
    | (r', .ok a) =>
      match r'.internAll ds with
      | (r'', .error f) => (r'', .error f)
      | (r'', .ok rest) => (r'', .ok (a.2 :: rest))

/-- The atoms of the blank-separated names in a text. -/
def internFields (r : Registry) : Datum → Registry × Except NameFault (List String)
  | .text s => r.internAll ((Text.fields s).map .text)
  | d => (r, .error (.notText d.kind "split"))

/-- The registered names in order. -/
def sortedNames (r : Registry) : List String := Text.sortNames r.names

/-- The events of going from `r` to a later registry. -/
def newAtoms (r later : Registry) : List Event :=
  (later.names.drop r.names.length).map .atomRegistered

/-- Read a label expression with the atoms of this registry. -/
def parse (r : Registry) (s : String) : Registry × Except ParseFault Label :=
  let reading := readLabel s
  (r.addAll reading.atoms, reading.result)

/-- The events of reading a label expression. -/
def parseEvents (r : Registry) (s : String) : List Event :=
  let (later, result) := r.parse s
  [.labelReceived s, .expressionReceived s] ++ r.newAtoms later ++
    match result with
    | .ok e => [.expressionRead e.operator, .labelRead e.name]
    | .error (.illegal i) => [.illegalChar i, .unexpectedFault i.message, .labelRejected]
    | .error .blank => [.labelRejected]
    | .error _ => [.syntaxFault, .labelRejected]

/-- Read a value as a label expression; only a text can be one. -/
def parseLiteral (r : Registry) : Literal → Registry × Except ParseFault Label
  | .text s => r.parse s
  | v => (r, .error (.notText v.datum.kind))

/-- The events of reading a value as a label expression. -/
def parseLiteralEvents (r : Registry) : Literal → List Event
  | .text s => r.parseEvents s
  | v =>
    [.labelReceived v.shown, .expressionReceived v.shown,
      .unexpectedFault ("AttributeError: " ++ (ParseFault.notText v.datum.kind).message)]

end Registry

end LabelScheduler
