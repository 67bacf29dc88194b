import LabelScheduler.CommandLine.Report
import LabelScheduler.Proofs.Scenario.Roster

/-!
# How runs end

A run that reads a file which is not in order ends with the code one, and a run that checks a malformed label or has
nothing to do ends with the code two. What the readers let through does not disturb the scheduler later, with one
exception: the name of a node may hold a blank, and the pool refuses it. Such a run goes astray, as does one with a
path that cannot be looked up or with a label that is given without a value; it ends with the code six. All other runs
end with the code zero.
-/

namespace LabelScheduler.CommandLine

/-! ### What decides the end of a run -/

/-- The text is not that of a label. -/
def Malformed (text : String) : Prop := ∃ f, labelOf text = .error f

section

variable (files : String → File) (nodes : Value) (o : Options)

/-- A label that is checked is malformed, or there is neither a label to be checked nor a file of jobs. -/
inductive Refused : Prop where
  | label {specs : List NodeSpec} (hnodes : (files nodes.path).HoldsNodes specs) {text : String}
      (hcheck : o.checkLabel = some (.text text)) (h : Malformed text)
  | job {specs : List NodeSpec} (hnodes : (files nodes.path).HoldsNodes specs) (hcheck : o.checkLabel = none)
      {v : Value} (hjobs : o.jobs = some v) {jobs : List JobSpec} (hread : (files v.path).HoldsJobs jobs)
      {j : JobSpec} (hj : j ∈ jobs) (h : Malformed j.label)
  | nothing {specs : List NodeSpec} (hnodes : (files nodes.path).HoldsNodes specs) (hcheck : o.checkLabel = none)
      (hjobs : o.jobs = none)

end

open Scheduler

variable {files : String → File} {nodes : Value} {o : Options} {specs : List NodeSpec}

section

variable {s : Scheduler} {level : Level} {jobs : List JobSpec}

end

section

variable {s : Scheduler} {level : Level} (hnodes : (files nodes.path).HoldsNodes specs)
  (hplain : ∀ n ∈ specs, Text.hasBlank n.name = false)

include hnodes hplain

variable {v : Value} (hcheck : o.checkLabel = none) (hjobs : o.jobs = some v)

include hcheck hjobs

end

end LabelScheduler.CommandLine
