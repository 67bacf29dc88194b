import LabelScheduler.Label.Token

/-!
# Writing label expressions

An operand stands in parentheses when it was written so, when it binds looser than the operator
around it, and when it is the right operand of an implication or an equivalence of its own kind.
Conjunction and disjunction are associative, so their right operands of the same kind need none.
-/

namespace LabelScheduler

/-- A token without its place: its kind and its characters. -/
structure Lexeme where
  kind : TokenKind
  chars : List Char
  deriving DecidableEq

namespace Lexeme

/-- An atom. -/
def ofName (n : String) : Lexeme := ⟨.atom, n.toList⟩

/-- The negation sign. -/
def bang : Lexeme := ⟨.not, ['!']⟩

/-- An opening parenthesis. -/
def opening : Lexeme := ⟨.opening, ['(']⟩

/-- A closing parenthesis. -/
def closing : Lexeme := ⟨.closing, [')']⟩

/-- The symbol of a connective. -/
def ofConnective (c : Connective) : Lexeme :=
  ⟨.connective c, (Operator.binary c).symbol.toList⟩

end Lexeme

/-- Put what `inner` puts in front of lexemes, between parentheses if `p` holds. -/
def parenthesizedIf (p : Bool) (inner : List Lexeme → List Lexeme) (after : List Lexeme) :
    List Lexeme :=
  if p then .opening :: inner (.closing :: after) else inner after

namespace Connective

/-- A right operand of the same connective keeps its parentheses. -/
def keepsRight : Connective → Bool
  | .and => false
  | .or => false
  | .implies => true
  | .iff => true

end Connective

namespace Label

/-- `e` needs parentheses as an operand of `parent` beside those it was written with. -/
def needsParens (parent : Operator) (right : Bool) (e : Label) : Bool :=
  !e.grouped &&
    (parent.precedence < e.operator.precedence ||
      (right && e.operator == parent &&
        match parent with
        | .binary c => c.keepsRight
        | _ => false))

/-- The lexemes of an expression, in front of those that come after it. -/
def lexemesThen : Label → List Lexeme → List Lexeme
  | .atom n g => parenthesizedIf g (.ofName n :: ·)
  | .not b g =>
    parenthesizedIf g fun after =>
      .bang :: parenthesizedIf (needsParens .not false b) (lexemesThen b) after
  | .binary op l r g =>
    parenthesizedIf g fun after =>
      parenthesizedIf (needsParens (.binary op) false l) (lexemesThen l)
        (.ofConnective op ::
          parenthesizedIf (needsParens (.binary op) true r) (lexemesThen r) after)

/-- The lexemes of an expression. -/
def lexemes (e : Label) : List Lexeme := e.lexemesThen []

/-- The written form of an expression. -/
def name (e : Label) : String := String.ofList (e.lexemes.flatMap (·.chars))

end Label

end LabelScheduler
