import LabelScheduler.Text.Blank
import LabelScheduler.Text.Digit
import LabelScheduler.Text.Quoted

/-!
# Whole numbers in decimal

A numeral is an optional sign and decimal digits of any script; a single low line may stand between
two digits, and blanks around it are ignored. Numerals of more than 4300 digits are refused, so the
time to read one stays bounded.
-/

namespace LabelScheduler.Text

/-- Why a text is no whole number. -/
inductive NumeralFault where
  | malformed (text : String)
  | tooLong (digits : Nat)
  deriving DecidableEq

/-- The largest number of digits a numeral may have. -/
def numeralLimit : Nat := 4300

/-- Blanks around a numeral; the four information separators do not count. -/
def isNumeralBlank (c : Char) : Bool :=
  isBlank c && !(0x1c ≤ c.toNat && c.toNat ≤ 0x1f)

/-- The digits at the front of a text and what follows them; nothing if a low line among them is not
between two digits. -/
def leadingDigits : List Char → Option (List Nat × List Char)
  | [] => some ([], [])
  | c :: '_' :: rest =>
    match digitValue? c with
    | none => some ([], c :: '_' :: rest)
    | some d =>
      match leadingDigits rest with
      | some (e :: es, tail) => some (d :: e :: es, tail)
      | _ => none
  | c :: cs =>
    match digitValue? c with
    | none => some ([], c :: cs)
    | some d => (leadingDigits cs).map fun r => (d :: r.1, r.2)

/-- The number written by decimal digits, most significant first. -/
def digitsValue (ds : List Nat) : Nat := ds.foldl (fun n d => 10 * n + d) 0

/-- A sign at the front of a text, as whether it is a minus, and what follows it. -/
def splitSign : List Char → Bool × List Char
  | '-' :: cs => (true, cs)
  | '+' :: cs => (false, cs)
  | cs => (false, cs)

/-- The whole number that a text stands for. -/
def readNumeral (s : String) : Except NumeralFault Int :=
  let signed := splitSign (trimBoth isNumeralBlank s.toList)
  match leadingDigits signed.2 with
  | none | some ([], _) => .error (.malformed s)
  | some (d :: ds, rest) =>
    let digits := d :: ds
    if numeralLimit < digits.length then .error (.tooLong digits.length)
    else if rest.isEmpty then
      .ok (if signed.1 then -(digitsValue digits : Int) else (digitsValue digits : Int))
    else .error (.malformed s)

/-- The reason in words; of a long text only the first 200 characters of its quoted form are shown.
-/
def NumeralFault.message : NumeralFault → String
  | .malformed s =>
    "invalid literal for int() with base 10: " ++ String.ofList ((quotedChars s.toList).take 200)
  | .tooLong n =>
    "Exceeds the limit (" ++ toString numeralLimit ++
      " digits) for integer string conversion: value has " ++ toString n ++
      " digits; use sys.set_int_max_str_digits() to increase the limit"

end LabelScheduler.Text
