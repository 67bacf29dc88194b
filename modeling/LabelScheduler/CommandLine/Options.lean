import LabelScheduler.Text.Digit
import LabelScheduler.Text.Quoted

/-!
# Options of the command line

An option is written with two dashes and its long name or with one dash and its letter. A value is
the next argument or is attached: after an equals sign, or, to a letter, directly. What is attached
to the letter of an option without a value is read as further letters behind the same dash. An
argument that starts with a dash is still a value if it is a dash alone, looks like a negative
number or holds a space; two dashes alone end the options, and attached they stand for no value at
all.
-/

namespace LabelScheduler.CommandLine

/-- The options. -/
inductive Key where
  | nodes
  | jobs
  | verbose
  | debug
  | validateOnly
  | checkLabel
  deriving DecidableEq

/-- The value of an option; it may be given and yet be no value. -/
inductive Value where
  | text (s : String)
  | nothing
  deriving DecidableEq

/-- The value that is attached to an option. -/
def Value.ofAttached (s : String) : Value := if s = "--" then .nothing else .text s

/-- What the options say. -/
structure Options where
  nodes : Option Value
  jobs : Option Value
  verbose : Bool
  debug : Bool
  validateOnly : Bool
  checkLabel : Option Value
  deriving DecidableEq

/-- Why the arguments cannot be used. -/
inductive UsageFault where
  | valueMissing (k : Key)
  | strayValue (k : Key) (value : String)
  | nodesMissing
  | jobsMissing
  | unrecognized (arguments : List String)
  deriving DecidableEq

namespace Key

/-- All options. -/
def all : List Key := [.nodes, .jobs, .verbose, .debug, .validateOnly, .checkLabel]

/-- The ways to write an option. -/
def names : Key → List String
  | .nodes => ["-n", "--nodes"]
  | .jobs => ["-j", "--jobs"]
  | .verbose => ["-v", "--verbose"]
  | .debug => ["--debug"]
  | .validateOnly => ["--validate-only"]
  | .checkLabel => ["--check-label"]

/-- The option has a value. -/
def takesValue : Key → Bool
  | .nodes | .jobs | .checkLabel => true
  | .verbose | .debug | .validateOnly => false

/-- The option that is written so. -/
def ofName? (s : String) : Option Key := all.find? fun k => s ∈ k.names

/-- An option as messages name it. -/
def text (k : Key) : String := "/".intercalate k.names

end Key

namespace Options

/-- Nothing has been said. -/
def initial : Options := ⟨none, none, false, false, false, none⟩

/-- Give an option its value. -/
def setValue (o : Options) (k : Key) (value : Value) : Options :=
  match k with
  | .nodes => { o with nodes := some value }
  | .jobs => { o with jobs := some value }
  | .checkLabel => { o with checkLabel := some value }
  | .verbose | .debug | .validateOnly => o

/-- Set an option that has no value. -/
def setFlag (o : Options) (k : Key) : Options :=
  match k with
  | .verbose => { o with verbose := true }
  | .debug => { o with debug := true }
  | .validateOnly => { o with validateOnly := true }
  | .nodes | .jobs | .checkLabel => o

end Options

/-- What an argument is, read by itself: a value, an option, an option with something attached to
its letter or to its long name, or neither. -/
inductive Argument where
  | value
  | option (k : Key)
  | attached (k : Key) (toLetter : Bool) (rest : List Char)
  | unknown
  deriving DecidableEq

namespace Argument

/-- The characters before the first equals sign and those after it. -/
def splitAssigned (cs : List Char) : Option (String × List Char) :=
  match cs.dropWhile (· ≠ '=') with
  | [] => none
  | _ :: rest => some (String.ofList (cs.takeWhile (· ≠ '=')), rest)

/-- Digits only, and at least one. -/
def isDigits (cs : List Char) : Bool := !cs.isEmpty && cs.all Text.isDecimalDigit

/-- The characters without a line feed at their very end. -/
def chomp (cs : List Char) : List Char :=
  if cs.getLast? = some '\n' then cs.dropLast else cs

/-- Digits, perhaps with a point before the last of them, and perhaps a line feed at the end. -/
def isUnsigned (cs : List Char) : Bool :=
  isDigits (chomp cs) ||
    match (chomp cs).dropWhile Text.isDecimalDigit with
    | '.' :: rest => isDigits rest
    | _ => false

/-- What an argument that starts with a dash is, if it is no option of ours. -/
def other (rest : List Char) : Argument :=
  if isUnsigned rest || rest.contains ' ' then .value else .unknown

/-- What an argument is. -/
def classify (s : String) : Argument :=
  match s.toList with
  | '-' :: c :: rest =>
    match Key.ofName? s with
    | some k => .option k
    | none =>
      match (splitAssigned s.toList).bind fun p => (Key.ofName? p.1).map (·, p.2) with
      | some (k, v) => .attached k (c ≠ '-') v
      | none =>
        if c = '-' then other (c :: rest)
        else
          match Key.ofName? (String.ofList ['-', c]) with
          | some k => .attached k true rest
          | none => other (c :: rest)
  | _ => .value

end Argument

/-- How far the arguments have been read: what the options say so far, the arguments that belong to
none, the option that waits for its value, and whether the options have ended. -/
structure Scan where
  options : Options
  extras : List String
  awaiting : Option Key
  closed : Bool
  deriving DecidableEq

namespace Scan

/-- No argument has been read. -/
def initial : Scan := ⟨.initial, [], none, false⟩

/-- An argument belongs to no option. -/
def extra (s : Scan) (a : String) : Scan := { s with extras := s.extras ++ [a] }

/-- An option without anything attached. -/
def meet (s : Scan) (k : Key) : Scan :=
  if k.takesValue then { s with awaiting := some k } else { s with options := s.options.setFlag k }

/-- Give an option the value that is attached to it. -/
def setAttached (s : Scan) (k : Key) (rest : List Char) : Scan :=
  { s with options := s.options.setValue k (.ofAttached (String.ofList rest)) }

/-- Text attached to the letter of an option: its value, or else the letters of further options, the
last of which may have a value attached in turn. -/
def attach (s : Scan) (k : Key) : List Char → Except UsageFault Scan
  | [] => .ok (s.meet k)
  | c :: rest =>
    if k.takesValue then .ok (s.setAttached k (c :: rest))
    else
      match Key.ofName? (String.ofList ['-', c]) with
      | none => .error (.strayValue k (String.ofList (c :: rest)))
      | some next => (s.meet k).attach next rest

/-- An option with something attached, be it empty. -/
def meetAttached (s : Scan) (k : Key) (toLetter : Bool) (rest : List Char) :
    Except UsageFault Scan :=
  if k.takesValue then .ok (s.setAttached k rest)
  else if toLetter && !rest.isEmpty then s.attach k rest
  else .error (.strayValue k (String.ofList rest))

/-- Read one argument. -/
def step (s : Scan) (a : String) : Except UsageFault Scan :=
  let kind := Argument.classify a
  match s.awaiting with
  | some k =>
    if a ≠ "--" ∧ kind = .value then
      .ok { s with options := s.options.setValue k (.text a), awaiting := none }
    else .error (.valueMissing k)
  | none =>
    if s.closed then .ok (s.extra a)
    else if a = "--" then .ok { s.extra a with closed := true }
    else
      match kind with
      | .value | .unknown => .ok (s.extra a)
      | .option k => .ok (s.meet k)
      | .attached k toLetter rest => s.meetAttached k toLetter rest

end Scan

/-- Read arguments one after the other. -/
def scanArguments (s : Scan) : List String → Except UsageFault Scan
  | [] =>
    match s.awaiting with
    | some k => .error (.valueMissing k)
    | none => .ok s
  | a :: as =>
    match s.step a with
    | .ok s' => scanArguments s' as
    | .error f => .error f

/-- The options that the arguments stand for, and the file of nodes that they must name. -/
def Options.parse (arguments : List String) : Except UsageFault (Value × Options) :=
  match scanArguments .initial arguments with
  | .error f => .error f
  | .ok s =>
    match s.options.nodes, s.extras with
    | none, _ => .error .nodesMissing
    | some nodes, [] => .ok (nodes, s.options)
    | some _, extras => .error (.unrecognized extras)

/-- The fault in words. -/
def UsageFault.message : UsageFault → String
  | .valueMissing k => "argument " ++ k.text ++ ": expected one argument"
  | .strayValue k v => "argument " ++ k.text ++ ": ignored explicit argument " ++ Text.quoted v
  | .nodesMissing => "the following arguments are required: " ++ Key.nodes.text
  | .jobsMissing => "--jobs is required unless --check-label is given"
  | .unrecognized as => "unrecognized arguments: " ++ " ".intercalate as

end LabelScheduler.CommandLine
