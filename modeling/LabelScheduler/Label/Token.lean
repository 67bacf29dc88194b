import LabelScheduler.Label.Basic
import LabelScheduler.Text.WordChar

/-!
# Tokens of label expressions

A text is cut into operator symbols, parentheses and atoms. An atom is a run of word characters,
dots and dashes; a dash that a `>` follows ends it, so `foo->bar` is an implication while
`solaris-x86` is one atom. Space, tab, carriage return and line feed separate tokens; any other
character is illegal.
-/

namespace LabelScheduler

/-- The kinds of token. -/
inductive TokenKind where
  | atom
  | not
  | connective (c : Connective)
  | opening
  | closing
  deriving DecidableEq

/-- A token: its kind, its characters and the position of the first of them. -/
structure Token where
  kind : TokenKind
  chars : List Char
  start : Nat
  deriving DecidableEq

/-- A character at which no token begins, and its position. -/
structure IllegalChar where
  char : Char
  position : Nat
  deriving DecidableEq

/-- What scanning a text gives: its tokens up to the first illegal character, if there is one. -/
structure Scanned where
  tokens : List Token
  illegal : Option IllegalChar
  deriving DecidableEq

namespace TokenKind

/-- The name of a kind of token. -/
def name : TokenKind → String
  | .atom => "ATOM"
  | .not => "NOT"
  | .connective .and => "AND"
  | .connective .or => "OR"
  | .connective .implies => "IMPLIES"
  | .connective .iff => "IFF"
  | .opening => "LPAREN"
  | .closing => "RPAREN"

end TokenKind

namespace Token

/-- The text of a token. -/
def text (t : Token) : String := String.ofList t.chars

/-- The position after the last character. -/
def stop (t : Token) : Nat := t.start + t.chars.length

end Token

/-- A character that separates tokens and is otherwise ignored. -/
def isSeparator (c : Char) : Bool := c == ' ' || c == '\t' || c == '\r' || c == '\n'

/-- `c` belongs to an atom when `rest` follows it. -/
def inAtom (c : Char) (rest : List Char) : Bool :=
  Text.isWordChar c || c == '.' || (c == '-' && rest.head? != some '>')

/-- The text begins with a character of an atom. -/
def opensAtom : List Char → Bool
  | [] => false
  | c :: rest => inAtom c rest

namespace Scanned

/-- Nothing but separators was left. -/
def nothing : Scanned := ⟨[], none⟩

/-- Put a token in front. -/
def push (t : Token) (s : Scanned) : Scanned := ⟨t :: s.tokens, s.illegal⟩

/-- Put a character at `position` in front of the atom that begins just after it. -/
def extend (c : Char) (position : Nat) (s : Scanned) : Scanned :=
  match s.tokens with
  | [] => ⟨[⟨.atom, [c], position⟩], s.illegal⟩
  | t :: ts => ⟨⟨t.kind, c :: t.chars, position⟩ :: ts, s.illegal⟩

end Scanned

/-- Scan a text whose first character is at `position`. -/
def scanFrom (position : Nat) : List Char → Scanned
  | [] => .nothing
  | '<' :: '-' :: '>' :: rest =>
    (scanFrom (position + 3) rest).push ⟨.connective .iff, ['<', '-', '>'], position⟩
  | '-' :: '>' :: rest =>
    (scanFrom (position + 2) rest).push ⟨.connective .implies, ['-', '>'], position⟩
  | '&' :: '&' :: rest =>
    (scanFrom (position + 2) rest).push ⟨.connective .and, ['&', '&'], position⟩
  | '|' :: '|' :: rest =>
    (scanFrom (position + 2) rest).push ⟨.connective .or, ['|', '|'], position⟩
  | '!' :: rest => (scanFrom (position + 1) rest).push ⟨.not, ['!'], position⟩
  | '(' :: rest => (scanFrom (position + 1) rest).push ⟨.opening, ['('], position⟩
  | ')' :: rest => (scanFrom (position + 1) rest).push ⟨.closing, [')'], position⟩
  | c :: rest =>
    if isSeparator c then scanFrom (position + 1) rest
    else if inAtom c rest then
      if opensAtom rest then (scanFrom (position + 1) rest).extend c position
      else (scanFrom (position + 1) rest).push ⟨.atom, [c], position⟩
    else ⟨[], some ⟨c, position⟩⟩

/-- Scan a text. -/
def scan (cs : List Char) : Scanned := scanFrom 0 cs

end LabelScheduler
