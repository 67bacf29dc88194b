import LabelScheduler.CommandLine.Directory
import LabelScheduler.CommandLine.Options
import LabelScheduler.CommandLine.Report
import LabelScheduler.Dispatcher
import LabelScheduler.Fault
import LabelScheduler.Item
import LabelScheduler.Journal
import LabelScheduler.Label.Basic
import LabelScheduler.Label.Grammar
import LabelScheduler.Label.Meaning
import LabelScheduler.Label.Parse
import LabelScheduler.Label.Recipe
import LabelScheduler.Label.Render
import LabelScheduler.Label.Token
import LabelScheduler.LabelCheck
import LabelScheduler.Literal
import LabelScheduler.Main
import LabelScheduler.Node
import LabelScheduler.Pool
import LabelScheduler.Proofs.Dispatcher.Handing
import LabelScheduler.Proofs.Dispatcher.Service
import LabelScheduler.Proofs.Dispatcher.Serving
import LabelScheduler.Proofs.Dispatcher.Shutdown
import LabelScheduler.Proofs.Label.Canonical
import LabelScheduler.Proofs.Label.Grammar
import LabelScheduler.Proofs.Label.Reading
import LabelScheduler.Proofs.Label.RoundTrip
import LabelScheduler.Proofs.Label.Scan
import LabelScheduler.Proofs.Pool
import LabelScheduler.Proofs.Queue
import LabelScheduler.Proofs.Registry
import LabelScheduler.Proofs.RunReference
import LabelScheduler.Proofs.Scenario.Check
import LabelScheduler.Proofs.Scenario.Contents
import LabelScheduler.Proofs.Scenario.Prediction
import LabelScheduler.Proofs.Scenario.Replay
import LabelScheduler.Proofs.Scheduler.Announcement
import LabelScheduler.Proofs.Scheduler.Availability
import LabelScheduler.Proofs.Scheduler.Change
import LabelScheduler.Proofs.Scheduler.Contract
import LabelScheduler.Proofs.Scheduler.Course
import LabelScheduler.Proofs.Scheduler.Effect
import LabelScheduler.Proofs.Scheduler.Exclusive
import LabelScheduler.Proofs.Scheduler.Lifecycle
import LabelScheduler.Proofs.Scheduler.Matching
import LabelScheduler.Proofs.Scheduler.Moment
import LabelScheduler.Proofs.Scheduler.Operations
import LabelScheduler.Proofs.Scheduler.Placement
import LabelScheduler.Proofs.Scheduler.Quiet
import LabelScheduler.Proofs.Scheduler.Refinement
import LabelScheduler.Proofs.Scheduler.Refusal
import LabelScheduler.Proofs.Scheduler.Release
import LabelScheduler.Proofs.Scheduler.Reported
import LabelScheduler.Proofs.Scheduler.Run
import LabelScheduler.Proofs.Scheduler.RunWaiting
import LabelScheduler.Proofs.Scheduler.Served
import LabelScheduler.Proofs.Scheduler.Steady
import LabelScheduler.Proofs.Scheduler.Unblocked
import LabelScheduler.Queue
import LabelScheduler.Registry
import LabelScheduler.Rehearsal.Cast
import LabelScheduler.Rehearsal.Shift
import LabelScheduler.Rehearsal.Step
import LabelScheduler.RunReference
import LabelScheduler.Scenario.File
import LabelScheduler.Scenario.Replay
import LabelScheduler.Scenario.Sheet
import LabelScheduler.Scheduler.Basic
import LabelScheduler.Scheduler.Blocking
import LabelScheduler.Scheduler.Dialogue
import LabelScheduler.Scheduler.Matching
import LabelScheduler.Scheduler.Operations
import LabelScheduler.Text.Blank
import LabelScheduler.Text.CharRange
import LabelScheduler.Text.Csv
import LabelScheduler.Text.Digit
import LabelScheduler.Text.Letter
import LabelScheduler.Text.NameOrder
import LabelScheduler.Text.Numeral
import LabelScheduler.Text.Printable
import LabelScheduler.Text.Quoted
import LabelScheduler.Text.Utf8
import LabelScheduler.Text.WordChar
import LabelScheduler.Proofs.Label.Equivalence
import LabelScheduler.Proofs.Label.Typed
import LabelScheduler.Proofs.Scheduler.FirstFit
import LabelScheduler.Proofs.Scenario.Roster
import LabelScheduler.Proofs.CommandLine.Ending
import LabelScheduler.Proofs.Label.Stance
import LabelScheduler.Proofs.Label.Parentheses
import LabelScheduler.Proofs.Label.FirstFault
import LabelScheduler.Proofs.Scheduler.SelfWaiting
import LabelScheduler.Proofs.Scheduler.Numbering
import LabelScheduler.Proofs.Scheduler.Opening
import LabelScheduler.Proofs.Scheduler.Turn
import LabelScheduler.Proofs.Scheduler.Taken
import LabelScheduler.Proofs.Label.Naming
import LabelScheduler.Proofs.Scheduler.Pinning
import LabelScheduler.Proofs.Label.Cutting
import LabelScheduler.Proofs.Label.TruthTable
import LabelScheduler.Proofs.Text.Blank
import LabelScheduler.Proofs.Text.Numeral
import LabelScheduler.Proofs.Text.Csv
import LabelScheduler.Proofs.Text.Utf8
import LabelScheduler.Proofs.Scenario.JobSheet
import LabelScheduler.Registry.Call
import LabelScheduler.Proofs.Text.Field
import LabelScheduler.Proofs.Registry.Canonical
