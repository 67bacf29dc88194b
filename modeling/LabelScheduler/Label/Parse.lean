import LabelScheduler.Label.Token
import LabelScheduler.Text.Blank

/-!
# Reading label expressions

Tokens are taken one at a time, and what is open to the left of the cursor is kept on a stack:
opened parentheses, negations and left operands that wait for a right one. Every connective binds to
the left, so an arriving connective first closes the waiting operands that bind at least as tightly
as itself. The first token that no expression can have at its place ends the reading, and so does
the first illegal character, whichever is met first. An atom is met as soon as the token after it,
or the end, shows that it is a whole operand; an atom directly before the fault is therefore not
met.
-/

namespace LabelScheduler

/-- Why a text is no label expression. -/
inductive ParseFault where
  | blank
  | unexpectedToken (t : Token)
  | unexpectedEnd
  | illegal (c : IllegalChar)
  | notText (kind : String)
  deriving DecidableEq

/-- Something open to the left of the cursor. -/
inductive Frame where
  | opening
  | negation
  | operand (op : Connective) (left : Label)
  deriving DecidableEq

/-- How far a reading has come: the open frames, innermost first, and the expression just read, if a
connective or the end may follow. -/
structure Cursor where
  frames : List Frame
  read : Option Label
  deriving DecidableEq

/-- The connective `a` binds at least as tightly as `b`. -/
def Connective.bindsBefore (a b : Connective) : Bool :=
  (Operator.binary a).precedence ≤ (Operator.binary b).precedence

namespace Cursor

/-- Nothing has been read. -/
def initial : Cursor := ⟨[], none⟩

/-- Apply the negations that stand directly before an expression. -/
def negate (e : Label) : List Frame → List Frame × Label
  | .negation :: fs => negate (.not e false) fs
  | fs => (fs, e)

/-- Close the waiting operands that bind at least as tightly as `op`, with `e` at their right. -/
def closeFor (op : Connective) (e : Label) : List Frame → List Frame × Label
  | .operand o l :: fs =>
    if o.bindsBefore op then closeFor op (.binary o l e false) fs else (.operand o l :: fs, e)
  | fs => (fs, e)

/-- Close all waiting operands up to the innermost parenthesis, with `e` at their right. -/
def closeAll (e : Label) : List Frame → List Frame × Label
  | .operand o l :: fs => closeAll (.binary o l e false) fs
  | fs => (fs, e)

/-- An operand has been read. -/
def operandRead (e : Label) (fs : List Frame) : Cursor :=
  let r := negate e fs
  ⟨r.1, some r.2⟩

/-- Move over one token, unless no expression has it at this place. -/
def step (c : Cursor) (t : Token) : Option Cursor :=
  match c.read, t.kind with
  | none, .atom => some (operandRead (.atom t.text false) c.frames)
  | none, .not => some ⟨.negation :: c.frames, none⟩
  | none, .opening => some ⟨.opening :: c.frames, none⟩
  | some e, .connective op =>
    let r := closeFor op e c.frames
    some ⟨.operand op r.2 :: r.1, none⟩
  | some e, .closing =>
    match closeAll e c.frames with
    | (.opening :: fs, whole) => some (operandRead whole.group fs)
    | _ => none
  | _, _ => none

/-- The expression read, if the text may end here. -/
def finish (c : Cursor) : Option Label :=
  match c.read with
  | none => none
  | some e =>
    match closeAll e c.frames with
    | ([], whole) => some whole
    | _ => none

end Cursor

/-- What reading a text gives: the atoms met as operands, in order and with repetitions, and the
expression or the fault that ended the reading. -/
structure Reading where
  atoms : List String
  result : Except ParseFault Label

/-- A token of this kind may stand directly after an operand. -/
def TokenKind.followsOperand : TokenKind → Bool
  | .connective _ | .closing => true
  | _ => false

/-- What comes after an atom ends it as an operand: a token that may follow one, or the end. -/
def settles (illegal : Option IllegalChar) : List Token → Bool
  | [] => illegal.isNone
  | t :: _ => t.kind.followsOperand

/-- Read on from a cursor; `illegal` is the illegal character after the last token, if any. -/
def readFrom (c : Cursor) (illegal : Option IllegalChar) : List Token → Reading
  | [] =>
    match illegal, c.finish with
    | some i, _ => ⟨[], .error (.illegal i)⟩
    | none, some e => ⟨[], .ok e⟩
    | none, none => ⟨[], .error .unexpectedEnd⟩
  | t :: ts =>
    match c.step t with
    | none => ⟨[], .error (.unexpectedToken t)⟩
    | some c' =>
      let r := readFrom c' illegal ts
      if t.kind = .atom ∧ settles illegal ts then ⟨t.text :: r.atoms, r.result⟩ else r

/-- Read a label expression, also saying which atoms were met. -/
def readLabel (s : String) : Reading :=
  if Text.isBlankText s then ⟨[], .error .blank⟩
  else
    let scanned := scan s.toList
    readFrom .initial scanned.illegal scanned.tokens

/-- Read a label expression. -/
def parseLabel (s : String) : Except ParseFault Label := (readLabel s).result

/-- An illegal character in words. -/
def IllegalChar.message (i : IllegalChar) : String :=
  "Illegal character '" ++ i.char.toString ++ "' encountered at position " ++ toString i.position

/-- The fault in words. -/
def ParseFault.message : ParseFault → String
  | .blank => "Label expression is empty."
  | .unexpectedToken t =>
    "Syntax error near '" ++ t.text ++ "' (type: " ++ t.kind.name ++ ") at position " ++
      toString t.start
  | .unexpectedEnd => "Syntax error: Unexpected end of label expression"
  | .illegal i => "Parse failed: " ++ i.message
  | .notText kind => "'" ++ kind ++ "' object has no attribute 'strip'"

end LabelScheduler
