import LabelScheduler.Label.Parse
import LabelScheduler.Label.Render

/-!
# The journal

What the scheduler does is noted as events. Each has a level and a wording; a reader of the journal
sees the events whose level is at least the one asked for, each on a line of its own.
-/

namespace LabelScheduler

/-- The levels of the journal. -/
inductive Level where
  | debug
  | info
  | warning
  | error
  deriving DecidableEq

namespace Level

/-- The rank of a level. -/
def rank : Level → Nat
  | .debug => 10
  | .info => 20
  | .warning => 30
  | .error => 40

/-- The level of a given name. -/
def ofName? : String → Option Level
  | "DEBUG" => some .debug
  | "INFO" => some .info
  | "WARNING" => some .warning
  | "ERROR" => some .error
  | _ => none

/-- The level that the flags of the command line ask for. -/
def ofFlags (verbose debug : Bool) : Level :=
  if debug then .debug else if verbose then .info else .warning

end Level

/-- A message with the rank that decides who sees it. -/
structure Entry where
  rank : Nat
  text : String
  deriving DecidableEq

namespace Entry

/-- Entries below the level of general information say their level in front. -/
def written (e : Entry) : String :=
  if Level.info.rank ≤ e.rank then e.text
  else if e.rank = Level.debug.rank then "[DEBUG] " ++ e.text
  else "[Level " ++ toString e.rank ++ "] " ++ e.text

/-- The entry is shown to a reader who asks for `threshold`; a rank of zero is never shown. -/
def shown (threshold : Level) (e : Entry) : Bool := 0 < e.rank && threshold.rank ≤ e.rank

/-- What a reader who asks for `threshold` sees of the entry. -/
def seen (threshold : Level) (e : Entry) : String :=
  if e.shown threshold then e.written ++ "\n" else ""

end Entry

/-- Something worth noting. -/
inductive Event where
  | labelReceived (text : String)
  | expressionReceived (text : String)
  | atomRegistered (name : String)
  | illegalChar (c : IllegalChar)
  | expressionRead (root : Operator)
  | labelRead (name : String)
  | syntaxFault
  | unexpectedFault (message : String)
  | labelRejected
  | nodeRegistered (name labels : String)
  | nodeRemovedRunning (name : String) (item : Int)
  | nodeRemoved (name : String)
  | nodeStateChanged (name old new : String)
  | itemSubmitted (id : Int) (task : String) (label : Option String)
  | itemAssigned (id : Int) (task node run : String)
  | itemBlocked (id : Int) (reason : String)
  | itemCancelled (id : Int) (withdrawn : Bool)
  | itemCompleted (id : Int) (node : Option String)
  | matchPass (number idle pending building : Int)
  | validation (success : Bool) (message : String)
  | listenerFailed (item node kind message : String)
  | buildFailed (kind message : String)
  | fileOpened (path : String)
  | rowRead (number : Nat) (cells : String)
  | stillPending (item reason : String)
  | note (level : Level) (text : String)
  deriving DecidableEq

namespace Event

/-- The level of an event. -/
def level : Event → Level
  | .nodeRemovedRunning _ _ => .warning
  | .itemAssigned _ _ _ _ => .info
  | .validation false _ => .error
  | .listenerFailed _ _ _ _ => .error
  | .buildFailed _ _ => .error
  | .stillPending _ _ => .warning
  | .note l _ => l
  | _ => .debug

/-- The wording of an event. -/
def text : Event → String
  | .labelReceived t => "Parsing label: " ++ t
  | .expressionReceived t => "Parsing label expression: " ++ t
  | .atomRegistered n => "Registered label atom '" ++ n ++ "'"
  | .illegalChar i =>
    "Illegal character '" ++ i.char.toString ++ "' at position " ++ toString i.position
  | .expressionRead op => "Parsed label expression into " ++ op.name
  | .labelRead n => "Label parsed successfully, canonical form: " ++ n
  | .syntaxFault => "Parse error encountered"
  | .unexpectedFault m => "Unexpected parsing error: " ++ m
  | .labelRejected => "ParseError encountered during label parsing"
  | .nodeRegistered n ls => "🖥️  Node '" ++ n ++ "' registered with labels [" ++ ls ++ "]"
  | .nodeRemovedRunning n i => "Node '" ++ n ++ "' removed while running item #" ++ toString i
  | .nodeRemoved n => "Node '" ++ n ++ "' removed from pool"
  | .nodeStateChanged n old new => "    Node '" ++ n ++ "': " ++ old ++ " → " ++ new
  | .itemSubmitted i t l =>
    "📥 Item #" ++ toString i ++ " (" ++ t ++ ") submitted with label " ++ l.getD "<any>"
  | .itemAssigned i t n r =>
    "✅ " ++ r ++ " (item #" ++ toString i ++ ", " ++ t ++ ") → " ++ n
  | .itemBlocked i r => "    ⛔ Item #" ++ toString i ++ " blocked: " ++ r
  | .itemCancelled i true => "🗑️  Item #" ++ toString i ++ " cancelled while pending"
  | .itemCancelled i false =>
    "    Cancellation of item #" ++ toString i ++ " ignored: already assigned"
  | .itemCompleted i n =>
    "🏁 Item #" ++ toString i ++ " completed" ++
      match n with
      | none | some "" => ""
      | some m => " on " ++ m
  | .matchPass k idle pending building =>
    "  🔍 Match pass " ++ toString k ++ ": idle=" ++ toString idle ++ ", pending=" ++
      toString pending ++ ", assigned=" ++ toString building
  | .validation true "" => "✅ Validation successful"
  | .validation true m => "✅ " ++ m
  | .validation false "" => "❌ Validation failed"
  | .validation false m => "❌ " ++ m
  | .listenerFailed i n k m =>
    "Assignment listener failed for " ++ i ++ " on " ++ n ++ ": " ++ k ++ ": " ++ m
  | .buildFailed k m => "Build execution failed: " ++ k ++ ": " ++ m
  | .fileOpened p => "Reading scenario file: " ++ p
  | .rowRead k cells => "Read scenario row " ++ toString k ++ ": " ++ cells
  | .stillPending i r => "⏳ " ++ i ++ " still pending: " ++ r
  | .note _ t => t

/-- The entry that an event makes. -/
def entry (e : Event) : Entry := ⟨e.level.rank, e.text⟩

end Event

/-- What a reader who asks for `threshold` sees of the events. -/
def journalText (threshold : Level) (events : List Event) : String :=
  String.join (events.map fun e => e.entry.seen threshold)

end LabelScheduler
