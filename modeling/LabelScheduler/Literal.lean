import LabelScheduler.Text.Quoted

/-!
# Plain values

Where a label, a name or a text is expected, a plain value may stand instead. A literal is such a
value in full, and its written form is what the journal shows of it. Of a datum only the kind is
known, and the characters if it is a text; this is enough to say why it does not do.
-/

namespace LabelScheduler

/-- A plain value where a label or a name was expected. -/
inductive Datum where
  | none
  | boolean
  | integer
  | decimal
  | text (s : String)
  | list
  | dictionary
  deriving DecidableEq

/-- What kind of value it is, in words. -/
def Datum.kind : Datum → String
  | .none => "NoneType"
  | .boolean => "bool"
  | .integer => "int"
  | .decimal => "float"
  | .text _ => "str"
  | .list => "list"
  | .dictionary => "dict"

/-- A plain value in full; a decimal number is kept as it was given. -/
inductive Literal where
  | none
  | boolean (b : Bool)
  | integer (n : Int)
  | decimal (digits : String)
  | text (s : String)
  | list (items : List Literal)
  | dictionary (entries : List (String × Literal))

namespace Literal

/-- What of a value decides where it does. -/
def datum : Literal → Datum
  | .none => .none
  | .boolean _ => .boolean
  | .integer _ => .integer
  | .decimal _ => .decimal
  | .text s => .text s
  | .list _ => .list
  | .dictionary _ => .dictionary

mutual

/-- The written form of a value, with quotes around texts. -/
def written : Literal → String
  | .none => "None"
  | .boolean true => "True"
  | .boolean false => "False"
  | .integer n => toString n
  | .decimal digits => digits
  | .text s => Text.quoted s
  | .list items => "[" ++ ", ".intercalate (writtenItems items) ++ "]"
  | .dictionary entries => "\x7b" ++ ", ".intercalate (writtenEntries entries) ++ "\x7d"

/-- The written forms of several values. -/
def writtenItems : List Literal → List String
  | [] => []
  | v :: vs => written v :: writtenItems vs

/-- The written forms of keys with their values. -/
def writtenEntries : List (String × Literal) → List String
  | [] => []
  | (k, v) :: es => (Text.quoted k ++ ": " ++ written v) :: writtenEntries es

end

/-- A value as it stands in a message: a text is its own characters. -/
def shown : Literal → String
  | .text s => s
  | v => v.written

end Literal

end LabelScheduler
