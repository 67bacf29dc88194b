import LabelScheduler.Registry
import LabelScheduler.Label.Meaning

/-!
# Building label expressions

Expressions are also put together from parts: atoms, parsed texts, negations, connectives and
groups. A recipe lists the steps and is carried out from left to right against one registry. Steps
whose parts do not fit are refused, each with its own reason.
-/

namespace LabelScheduler

/-- What a step of a recipe gives: an atom, an expression or a value that is no label. -/
inductive Part where
  | atom (name : String)
  | label (e : Label)
  | plain (d : Datum)
  deriving DecidableEq

/-- Why a recipe cannot be carried out. -/
inductive RecipeFault where
  | name (f : NameFault)
  | parse (f : ParseFault)
  | notCombinable (kind : String)
  | unsupported (sign left right : String)
  | notNegatable (kind : String)
  | lacks (kind ability : String)
  | noSuchOperand
  | operandCount (op : Operator) (count : Nat)
  | strayAtom
  deriving DecidableEq

/-- The fault in words. -/
def RecipeFault.message : RecipeFault → String
  | .name f => f.message
  | .parse f => f.message
  | .notCombinable k => "Cannot combine a label with " ++ k
  | .unsupported s l r =>
    "unsupported operand type(s) for " ++ s ++ ": '" ++ l ++ "' and '" ++ r ++ "'"
  | .notNegatable k => "bad operand type for unary ~: '" ++ k ++ "'"
  | .lacks k a => "'" ++ k ++ "' object has no attribute '" ++ a ++ "'"
  | .noSuchOperand => "tuple index out of range"
  | .operandCount op n =>
    op.name ++ " takes " ++ toString op.arity ++ " operand(s), got " ++ toString n
  | .strayAtom => "Only ATOM nodes reference an atom"

/-- The steps that build a label expression. -/
inductive Recipe where
  | atom (name : Datum)
  | bareAtom (name : String)
  | parse (text : Literal)
  | expression (e : Recipe)
  | negate (e : Recipe)
  | complement (e : Recipe)
  | combine (op : Connective) (left right : Recipe)
  | both (left right : Recipe)
  | either (left right : Recipe)
  | group (e : Recipe)
  | operand (e : Recipe) (index : Int)
  | plain (d : Datum)
  | direct (op : Operator) (operands : List Recipe) (atom : Option String) (grouped : Bool)

namespace Part

/-- What kind of part it is, in words. -/
def kind : Part → String
  | .atom _ => "LabelAtom"
  | .label _ => "LabelExpression"
  | .plain d => d.kind

/-- The expression that a part stands for. -/
def toLabel : Part → Except RecipeFault Label
  | .atom n => .ok (.atom n false)
  | .label e => .ok e
  | .plain d => .error (.lacks d.kind "as_expression")

/-- Negation, asked of the part itself. -/
def negate : Part → Except RecipeFault Part
  | .plain d => .error (.lacks d.kind "not_")
  | .atom n => .ok (.label (.not (.atom n false) false))
  | .label e => .ok (.label (.not e false))

/-- Complement by its sign; whole numbers and truth values have one of their own. -/
def complement : Part → Except RecipeFault Part
  | .plain .integer => .ok (.plain .integer)
  | .plain .boolean => .ok (.plain .integer)
  | .plain d => .error (.notNegatable d.kind)
  | .atom n => .ok (.label (.not (.atom n false) false))
  | .label e => .ok (.label (.not e false))

/-- How a connective is asked of a part. -/
def requestName : Connective → String
  | .and => "and_"
  | .or => "or_"
  | .implies => "implies"
  | .iff => "iff"

/-- Two labels under a connective, asked of the left one. -/
def combine (op : Connective) (a b : Part) : Except RecipeFault Part :=
  match a.toLabel, b.toLabel with
  | .error _, _ => .error (.lacks a.kind (requestName op))
  | _, .error _ => .error (.notCombinable b.kind)
  | .ok l, .ok r => .ok (.label (.binary op l r false))

/-- What the signs for conjunction and disjunction give on plain values, where they are defined. -/
def joinPlain (op : Connective) : Datum → Datum → Option Datum
  | .integer, .integer => some .integer
  | .integer, .boolean => some .integer
  | .boolean, .integer => some .integer
  | .boolean, .boolean => some .boolean
  | .dictionary, .dictionary => if op = .or then some .dictionary else none
  | _, _ => none

/-- Two parts under a connective, written with its sign. -/
def join (op : Connective) (sign : String) (a b : Part) : Except RecipeFault Part :=
  let refused := RecipeFault.unsupported sign a.kind b.kind
  match a, b with
  | .plain d, .plain e =>
    match joinPlain op d e with
    | some f => .ok (.plain f)
    | none => .error refused
  | _, _ =>
    match a.toLabel, b.toLabel with
    | .ok l, .ok r => .ok (.label (.binary op l r false))
    | _, _ => .error refused

/-- The operand of a given index; negative indices count from the end. -/
def operand (p : Part) (index : Int) : Except RecipeFault Part :=
  match p with
  | .label e =>
    let count := e.operands.length
    let place := if index < 0 then index + count else index
    match if place < 0 then none else e.operands[place.toNat]? with
    | some o => .ok (.label o)
    | none => .error .noSuchOperand
  | p => .error (.lacks p.kind "operands")

/-- Parts that are given as operands have to be expressions already. -/
def expressions : List Part → Except RecipeFault (List Label)
  | [] => .ok []
  | .label e :: ps => (expressions ps).map (e :: ·)
  | p :: _ => .error (.lacks p.kind "grouped")

/-- An expression from its operator, its operands and its atom. -/
def direct (op : Operator) (parts : List Part) (atom : Option String) (grouped : Bool) :
    Except RecipeFault Part :=
  if parts.length ≠ op.arity then .error (.operandCount op parts.length)
  else if (op = .atom) ≠ atom.isSome then .error .strayAtom
  else
    match expressions parts with
    | .error f => .error f
    | .ok es =>
      match op, es, atom with
      | .atom, _, some n => .ok (.label (.atom n grouped))
      | .not, [e], _ => .ok (.label (.not e grouped))
      | .binary c, [l, r], _ => .ok (.label (.binary c l r grouped))
      | _, _, _ => .error .strayAtom

end Part

/-- What carrying out a recipe leaves behind: the registry, the events and the outcome. -/
structure Built (α : Type) where
  registry : Registry
  events : List Event
  outcome : Except RecipeFault α

namespace Built

/-- Go on with what was built, unless it failed. -/
def andThen {α β : Type} (b : Built α) (f : Registry → α → Built β) : Built β :=
  match b.outcome with
  | .error e => ⟨b.registry, b.events, .error e⟩
  | .ok a =>
    let next := f b.registry a
    ⟨next.registry, b.events ++ next.events, next.outcome⟩

/-- Finish with a step that needs no registry. -/
def finish {α β : Type} (b : Built α) (f : α → Except RecipeFault β) : Built β :=
  b.andThen fun r a => ⟨r, [], f a⟩

end Built

namespace Recipe

/-- Make the atom of a name. -/
def buildAtom (r : Registry) (d : Datum) : Built Part :=
  match r.internDatum d with
  | (later, .ok a) => ⟨later, r.newAtoms later, .ok (.atom a.2)⟩
  | (later, .error f) => ⟨later, [], .error (.name f)⟩

/-- Read a value as an expression. -/
def buildParsed (r : Registry) (v : Literal) : Built Part :=
  let (later, result) := r.parseLiteral v
  ⟨later, r.parseLiteralEvents v, (result.map Part.label).mapError .parse⟩

mutual

/-- Carry out a recipe. -/
def build (r : Registry) : Recipe → Built Part
  | .atom d => buildAtom r d
  | .bareAtom n => ⟨r, [], .ok (.atom n)⟩
  | .parse v => buildParsed r v
  | .expression e => (build r e).finish fun p => p.toLabel.map .label
  | .negate e => (build r e).finish Part.negate
  | .complement e => (build r e).finish Part.complement
  | .combine op a b =>
    (build r a).andThen fun r' p => (build r' b).finish fun q => Part.combine op p q
  | .both a b =>
    (build r a).andThen fun r' p => (build r' b).finish fun q => Part.join .and "&" p q
  | .either a b =>
    (build r a).andThen fun r' p => (build r' b).finish fun q => Part.join .or "|" p q
  | .group e => (build r e).finish fun p => p.toLabel.map fun l => .label l.group
  | .operand e i => (build r e).finish fun p => p.operand i
  | .plain d => ⟨r, [], .ok (.plain d)⟩
  | .direct op es owner grouped =>
    (buildAll r es).finish fun ps => Part.direct op ps owner grouped

/-- Carry out recipes from left to right. -/
def buildAll (r : Registry) : List Recipe → Built (List Part)
  | [] => ⟨r, [], .ok []⟩
  | e :: es =>
    (build r e).andThen fun r' p => (buildAll r' es).finish fun ps => .ok (p :: ps)

end

end Recipe

end LabelScheduler
