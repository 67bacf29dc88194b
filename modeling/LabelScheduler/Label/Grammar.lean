import LabelScheduler.Label.Render

/-!
# The grammar of label expressions

Label expressions are written in layers, one for each operator, from equivalences, the loosest, down to atoms.
A phrase of the layer of a connective is one or more phrases of the next tighter layer with the connective
between them. Phrases are the derivations of this grammar: each has the lexemes that it derives and the
expression that it stands for, in which the operands of a layer are joined from the left and parentheses are
remembered on what they enclose.
-/

namespace LabelScheduler

/-- The layer that the operands of a connective belong to, the next tighter one. -/
def Connective.operand : Connective → Operator
  | .and => .not
  | .or => .binary .and
  | .implies => .binary .or
  | .iff => .binary .implies

mutual

/-- A phrase of the layer of an operator. -/
inductive Phrase : Operator → Type where
  | chain (op : Connective) (first : Phrase op.operand) (rest : Repetition op) : Phrase (.binary op)
  | negation (body : Phrase .not) : Phrase .not
  | operand (body : Phrase .atom) : Phrase .not
  | parentheses (body : Phrase (.binary .iff)) : Phrase .atom
  | name (n : String) : Phrase .atom

/-- Any number of further operands of a connective, each behind the connective. -/
inductive Repetition : Connective → Type where
  | none (op : Connective) : Repetition op
  | more (op : Connective) (next : Phrase op.operand) (rest : Repetition op) : Repetition op

end

mutual

/-- The lexemes that a phrase derives. -/
def Phrase.lexemes {o : Operator} : Phrase o → List Lexeme
  | .chain _ first rest => first.lexemes ++ rest.lexemes
  | .negation body => .bang :: body.lexemes
  | .operand body => body.lexemes
  | .parentheses body => .opening :: body.lexemes ++ [.closing]
  | .name n => [.ofName n]

/-- The lexemes of further operands and of the connectives before them. -/
def Repetition.lexemes {op : Connective} : Repetition op → List Lexeme
  | .none _ => []
  | .more op next rest => .ofConnective op :: next.lexemes ++ rest.lexemes

end

mutual

/-- The expression that a phrase stands for. -/
def Phrase.label {o : Operator} : Phrase o → Label
  | .chain _ first rest => rest.foldOnto first.label
  | .negation body => .not body.label false
  | .operand body => body.label
  | .parentheses body => body.label.group
  | .name n => .atom n false

/-- Join further operands, one by one, to what stands to their left. -/
def Repetition.foldOnto {op : Connective} : Repetition op → Label → Label
  | .none _, left => left
  | .more op next rest, left => rest.foldOnto (.binary op left next.label false)

end

/-- The phrase is nothing but another one in parentheses. -/
def Phrase.isEnclosed {o : Operator} : Phrase o → Bool
  | .chain _ first (.none _) => first.isEnclosed
  | .chain _ _ (.more _ _ _) => false
  | .negation _ => false
  | .operand body => body.isEnclosed
  | .parentheses _ => true
  | .name _ => false

end LabelScheduler
