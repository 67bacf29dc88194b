import LabelScheduler.Proofs.Scenario.Check
import LabelScheduler.Proofs.Scenario.Contents
import Mathlib.Data.List.Forall2

/-!
# What checks foretell

Jobs are submitted up to the first of them that is refused. A job is refused for what it comes after, for its label or
for its task, so checks without errors say that none is refused for its label. Jobs that were read from a file are in
order but for their labels. Where such jobs are replayed after a check without errors, they are all submitted, and the
checks say which of them complete: matching finds a node for a label exactly if the check of the label did.
-/

namespace LabelScheduler

/-! ### Submitting jobs -/

/-- Why the submission of a job is refused, if it is: what it waits for is no run, its label cannot be read, or its
task has the mark. -/
def JobSpec.refusal (j : JobSpec) : Option Fault :=
  match j.blockers with
  | .error f => some f
  | .ok _ =>
    match labelOf j.label with
    | .error f => some f
    | .ok _ => if '#' ∈ j.task.toList then some (.taskName j.task) else none

/-- Where parties only listen and let every item go, an operation fails only for the reason for which it is refused. -/
theorem Dialogue.playSilent_of_abides {α : Type} {d : Dialogue α} {s : Scheduler} {refusal : Option Fault}
    (h : d.Abides .lenient s refusal) (hadvances : d.Advances Set.univ s) (hs : s.WellFormed) :
    d.playSilent.1.WellFormed ∧
      refusal.elim (∃ a, d.playSilent.2 = .ok a) fun f => d.playSilent.2 = .error f := by
  obtain ⟨xs, hcourse, hback⟩ := Course.exists_of_play (fun (_ : Unit) s _ => ((), s, none)) (fun _ _ _ => .refl) d ()
  refine ⟨hs.effects (hadvances.reaches hs hcourse), ?_⟩
  cases refusal with
  | some f =>
      obtain ⟨t, rfl, -⟩ := h
      rfl
  | none =>
      cases hresult : d.playSilent.2 with
      | ok a => exact ⟨a, rfl⟩
      | error f =>
          have hfailed : d.Course xs d.playSilent.1 (.error f) := hresult ▸ hcourse
          rcases h xs _ f hfailed with ⟨x, hx, hfault⟩ | ⟨p, u, item, hverdict⟩
          · obtain ⟨-, hanswer⟩ := hback x hx
            have hsilent : x.fault = none := (congrArg Prod.snd hanswer).symm
            cases hfault.symm.trans hsilent
          · cases hverdict

namespace Scheduler

variable {s t : Scheduler} {jobs : List JobSpec}

/-- Jobs are submitted up to the first of them that is refused, which ends the submission with its fault. -/
theorem submitAll_refusal (hs : s.WellFormed) (q : Nat) (jobs : List JobSpec) :
    (jobs.findSome? JobSpec.refusal).elim (∃ items, (JobSpec.submitAll q jobs s).2 = .ok items)
      fun f => (JobSpec.submitAll q jobs s).2 = .error f := by
  induction jobs generalizing s with
  | nil => exact ⟨[], rfl⟩
  | cons j jobs ih =>
      cases hblockers : j.blockers with
      | error f =>
          have hrefusal : j.refusal = some f := by rw [JobSpec.refusal, hblockers]
          rw [List.findSome?_cons, hrefusal, JobSpec.submitAll, hblockers]
          rfl
      | ok bs =>
          have habides := submit_abides hs .lenient q (.plain (.text j.label)) j.task bs
          have hadvances : (s.submit .lenient q (.plain (.text j.label)) j.task bs).Advances Set.univ s :=
            submit_advances ..
          have hrefusal : (Request.submit q (.plain (.text j.label)) j.task bs).refusal s = j.refusal := by
            cases hlabel : labelOf j.label <;>
              simp only [Request.refusal, JobSpec.refusal, readLabel_text, hblockers, hlabel]
          rw [hrefusal] at habides
          obtain ⟨hwell, hsubmitted⟩ := Dialogue.playSilent_of_abides habides hadvances hs
          simp only [List.findSome?_cons, JobSpec.submitAll, hblockers]
          generalize (s.submit .lenient q (.plain (.text j.label)) j.task bs).playSilent = played
            at hwell hsubmitted ⊢
          obtain ⟨s₁, result⟩ := played
          cases hj : j.refusal with
          | some f =>
              rw [hj] at hsubmitted
              obtain rfl : result = .error f := hsubmitted
              rfl
          | none =>
              rw [hj] at hsubmitted
              obtain ⟨item, rfl⟩ := hsubmitted
              have hrest := ih hwell
              cases hfirst : jobs.findSome? JobSpec.refusal with
              | none =>
                  rw [hfirst] at hrest
                  obtain ⟨items, hitems⟩ := hrest
                  exact ⟨item :: items, congrArg (Except.map (item :: ·)) hitems⟩
              | some f =>
                  rw [hfirst] at hrest
                  exact congrArg (Except.map (item :: ·)) hrest

end Scheduler

namespace JobSpec

variable {j : JobSpec} {f : Fault}

/-- A job lacks blockers only because what it comes after is no run. -/
theorem blockers_error (h : j.blockers = .error f) : ∃ g, f = .run g := by
  unfold blockers at h
  extract_lets first at h
  split at h
  case h_1 => cases h
  case h_2 id hafter =>
    split at h
    case isTrue => cases h
    case isFalse =>
      split at h
      case h_1 => cases h
      case h_2 g hread => cases h; exact ⟨g, rfl⟩

/-- A job is refused for what it comes after, for its label or for its task. -/
theorem refusal_cases (h : j.refusal = some f) :
    j.blockers = .error f ∨ labelOf j.label = .error f ∨ '#' ∈ j.task.toList ∧ f = .taskName j.task := by
  unfold refusal at h
  split at h
  case h_1 f' hblockers => exact .inl (Option.some.inj h ▸ hblockers)
  case h_2 =>
    split at h
    case h_1 f' hlabel => exact .inr (.inl (Option.some.inj h ▸ hlabel))
    case h_2 =>
      split at h
      case isTrue hmark => exact .inr (.inr ⟨hmark, (Option.some.inj h).symm⟩)
      case isFalse => cases h

/-- The label of a job that is not refused can be read. -/
theorem labelOf_of_refusal_none (h : j.refusal = none) : ∃ label, labelOf j.label = .ok label := by
  unfold refusal at h
  split at h
  case h_1 => cases h
  case h_2 =>
    split at h
    case h_1 => cases h
    case h_2 label hlabel => exact ⟨label, hlabel⟩

/-- Only a label is refused as malformed. -/
theorem labelOf_of_refusal (h : j.refusal = some f) (hparse : f.kind = "ParseError") : labelOf j.label = .error f := by
  rcases refusal_cases h with hblockers | hlabel | ⟨-, rfl⟩
  · obtain ⟨g, rfl⟩ := blockers_error hblockers
    rw [Fault.kind] at hparse
    exact absurd hparse (by decide)
  · exact hlabel
  · rw [Fault.kind] at hparse
    exact absurd hparse (by decide)

end JobSpec

namespace Scheduler

variable {s u : Scheduler}

/-- If the checks of jobs find no error, then none of the jobs is refused as malformed; if they find some, then the
submission of the jobs ends with a fault, if not for a malformed label, then for a job that is refused for another
reason. -/
theorem submitAll_of_checkAll (s : Scheduler) (hu : u.WellFormed) (q : Nat) (jobs : List JobSpec) :
    ((JobSpec.checkAll jobs s).2 = true →
      ∀ f, (JobSpec.submitAll q jobs u).2 = .error f → f.kind ≠ "ParseError") ∧
    ((JobSpec.checkAll jobs s).2 = false → ∃ f, (JobSpec.submitAll q jobs u).2 = .error f ∧
      (f.kind = "ParseError" ∨ ∃ j ∈ jobs, j.blockers = .error f ∨ '#' ∈ j.task.toList ∧ f = .taskName j.task)) := by
  have hsubmitted := submitAll_refusal hu q jobs
  rw [(checkAll_spec jobs s).2.2]
  cases hfirst : jobs.findSome? JobSpec.refusal with
  | none =>
      rw [hfirst] at hsubmitted
      obtain ⟨items, hitems⟩ := hsubmitted
      refine ⟨fun _ f hf => (nomatch hitems.symm.trans hf), fun hrejected => ?_⟩
      obtain ⟨j, hj, hrejected⟩ := List.all_eq_false.mp hrejected
      have hnone := List.findSome?_eq_none_iff.mp hfirst j hj
      exact absurd ((accepted_iff s j.label).mpr (JobSpec.labelOf_of_refusal_none hnone)) hrejected
  | some f =>
      rw [hfirst] at hsubmitted
      obtain ⟨j, hj, hrefusal⟩ := List.exists_of_findSome?_eq_some hfirst
      refine ⟨fun haccepted f' hf' hparse => ?_, fun _ => ⟨f, hsubmitted, ?_⟩⟩
      · cases hsubmitted.symm.trans hf'
        obtain ⟨label, hlabel⟩ := (accepted_iff s j.label).mp (List.all_eq_true.mp haccepted j hj)
        cases hlabel.symm.trans (JobSpec.labelOf_of_refusal hrefusal hparse)
      · rcases JobSpec.refusal_cases hrefusal with hblockers | hlabel | hmark
        · exact .inr ⟨j, hj, .inl hblockers⟩
        · obtain ⟨g, rfl⟩ := labelOf_error hlabel
          exact .inl rfl
        · exact .inr ⟨j, hj, .inr hmark⟩

end Scheduler

/-! ### Jobs from a file -/

/-- A job in order but for its label is refused for that at the most. -/
theorem JobSpec.Readable.not_refused {j : JobSpec} (h : j.Readable) (f : Fault) :
    ¬ (j.blockers = .error f ∨ '#' ∈ j.task.toList ∧ f = .taskName j.task) := by
  rintro (hblockers | ⟨hmark, -⟩)
  · have hblank : Text.isBlankText "" = true := rfl
    have hsound : JobSpec.Sound { j with label := "" } := ⟨h.task, .inl hblank, fun id hid => .inr (h.after id hid)⟩
    obtain ⟨bs, hbs, -⟩ := hsound.blockers
    cases hblockers.symm.trans hbs
  · exact h.task hmark

/-- Jobs from a file have tasks without the mark and come after nothing or after runs. -/
theorem FileReading.readable {path : String} {file : File} {jobs : List JobSpec}
    (h : (FileReading.jobs path file).result = .ok jobs) : ∀ j ∈ jobs, j.Readable :=
  (jobs_ok_iff.mp h).readable

/-! ### Replaying what was checked -/

/-- The label that a job asks for is the one that is read. -/
theorem JobSpec.wanted_of_labelOf {j : JobSpec} {label : Option Label} (h : labelOf j.label = .ok label) :
    j.wanted = label := by
  rcases labelOf_ok h with ⟨hblank, rfl⟩ | ⟨hblank, e, hparse, rfl⟩
  · rw [wanted, if_pos hblank]
  · rw [wanted, hblank, hparse]
    rfl

/-- A job that can be submitted is in order. -/
theorem JobSpec.Readable.sound {j : JobSpec} (h : j.Readable) {label : Option Label}
    (hlabel : labelOf j.label = .ok label) : j.Sound where
  task := h.task
  label := (labelOf_ok hlabel).imp (fun h => h.1) fun ⟨_, e, hparse, _⟩ => ⟨e, hparse⟩
  after id hid := .inr (h.after id hid)

namespace Scheduler

variable {s t : Scheduler} {text : String} {jobs : List JobSpec}

/-- A check keeps a scheduler fresh. -/
theorem Fresh.unchanged (h : Fresh s) (hmilds : Milds s t) (hunchanged : s.Unchanged t) : Fresh t where
  reached := h.reached.trans hmilds.effects
  closed := hunchanged.queues.trans h.closed
  unheard := hunchanged.subscribers.trans h.unheard
  idle := hunchanged.nodes ▸ h.idle

/-- Noting events keeps a scheduler fresh. -/
theorem Fresh.logAll (h : Fresh s) (es : List Event) : Fresh (s.logAll es) :=
  h.unchanged (.single (.note (Alike.logAll s es))) (.logAll s es)

/-- A replay of jobs in order on a fresh scheduler ends. -/
theorem Fresh.replayed (h : Fresh s) (hjobs : ∀ j ∈ jobs, j.Sound) :
    ∃ t items, s.replay jobs = (t, .ok items) ∧ Replayed s jobs t items := by
  have hs := WellFormed.empty.effects h.reached
  have hopened := h.openQueue
  have hs' := hs.effects hopened.effects
  obtain ⟨t, items, hsubmitAll, hsubmitted, hitems⟩ := hopened.steady.submitAll hs' hopened.served hjobs
  have ht := hs'.effects hsubmitted.effects
  obtain ⟨u, hdrain, hdrained, hnone⟩ := hsubmitted.steady.drain ht hsubmitted.served (ht.queues 0).unfinished_le
  have hproceeds := (hopened.trans hsubmitted).trans hdrained
  have hfinished : Finished (s.pool.nodes.map Node.described) u :=
    { wellFormed := hs.effects hproceeds.effects
      steady := hproceeds.steady
      attached := Attached.effects (h.reached.trans hproceeds.effects) (Nat.le_of_eq hproceeds.steady.single)
      served := hproceeds.served
      completed := hnone }
  refine ⟨_, items, ?_, hproceeds.replayed hfinished (hitems.imp fun j item hitem => ?_)⟩
  · simp only [replay, h.closed, List.length_nil, hsubmitAll, hdrain, hfinished.explainPending]
  · obtain ⟨hzero, e, he, hlabel⟩ := hitem
    obtain ⟨e', he', hsame⟩ := (Grows.effects hdrained.effects).items he
    exact ⟨hzero, e', he', hsame ▸ hlabel⟩

/-- If no check finds an error, a replay ends, with those jobs completed whose check approved, and those pending whose
check warned. -/
theorem Fresh.foretold (h : Fresh s) (hnodes : s.pool.nodes ≠ []) (hjobs : ∀ j ∈ jobs, j.Readable)
    (hchecks : ∀ j ∈ jobs, (s.checkLabel j.label).2.kind ≠ .error) (checked : List JobSpec) :
    ∃ t items, (JobSpec.checkAll checked s).1.replay jobs = (t, .ok items) ∧
      List.Forall₂ (fun j item => ∃ e, t.get? item = some e ∧
        ((s.checkLabel j.label).2.kind = .warning → e.state = .pending) ∧
        ((s.checkLabel j.label).2.kind = .ok → e.state = .completed)) jobs items := by
  obtain ⟨hmilds, hunchanged, -⟩ := checkAll_spec checked s
  have hlabel (j : JobSpec) (hj : j ∈ jobs) : ∃ label, labelOf j.label = .ok label :=
    (accepted_iff s j.label).mp (bne_iff_ne.mpr (hchecks j hj))
  have hsound (j : JobSpec) (hj : j ∈ jobs) : j.Sound := by
    obtain ⟨label, hlabel⟩ := hlabel j hj
    exact (hjobs j hj).sound hlabel
  obtain ⟨t, items, hreplay, hreplayed⟩ := (h.unchanged hmilds hunchanged).replayed hsound
  refine ⟨t, items, hreplay, ((List.forall₂_and_left _ _).mpr ⟨hlabel, hreplayed.submitted⟩).imp ?_⟩
  rintro j ⟨q, id⟩ ⟨⟨label, hlabel⟩, rfl, e, he, hwanted⟩
  obtain ⟨hstate, hpending⟩ := hreplayed.ended he
  rw [hunchanged.nodes, hwanted, JobSpec.wanted_of_labelOf hlabel] at hpending
  have hforetells := checkLabel_foretells s j.label
  rw [readLabel_text, hlabel] at hforetells
  refine ⟨e, he, fun hwarned => hpending.mpr ?_, fun hok => hstate.resolve_right fun hstate => ?_⟩
  · obtain ⟨_, hread, hunmet⟩ := (hforetells.warning_iff hnodes).mp hwarned
    cases hread
    exact hunmet
  · obtain ⟨_, hread, n, hn, hmeets⟩ := (hforetells.ok_iff hnodes).mp hok
    cases hread
    exact absurd hmeets (Bool.eq_false_iff.mp (hpending.mp hstate n hn))

/-- Checks foretell how submissions go. Where there are nodes, the check of a text finds an error exactly if
submissions cannot read it, approves of it exactly if some node satisfies the label that they read, listing these
nodes unless the text is blank, and warns otherwise. If the checks of jobs find no error, the submission of these
jobs in order does not fail on a malformed label; if they find some, it fails on one, or for the task of a job or for
what a job comes after, which does not happen to jobs from a file. Jobs from a file that were checked without an error
are replayed on a pool of nodes, and those of them complete whose check approved, while those stay pending whose check
warned. -/
theorem check_predicts :
    (∀ (moves : List Move) (text : String),
      let s := (Config.run moves).state
      s.pool.nodes ≠ [] → s.Predicted text) ∧
    (∀ (moves : List Move) (checked jobs : List JobSpec),
      let s := (Config.run moves).state
      let u := (JobSpec.checkAll checked s).1
      let submitted := (JobSpec.submitAll u.queues.length jobs (u.openQueue [])).2
      ((JobSpec.checkAll jobs s).2 = true → ∀ f, submitted = .error f → f.kind ≠ "ParseError") ∧
      ((JobSpec.checkAll jobs s).2 = false → ∃ f, submitted = .error f ∧
        (f.kind = "ParseError" ∨ ∃ j ∈ jobs, j.blockers = .error f ∨ '#' ∈ j.task.toList ∧ f = .taskName j.task)) ∧
      ∀ (path : String) (file : File), (FileReading.jobs path file).result = .ok jobs →
        ((JobSpec.checkAll jobs s).2 = true ↔ ∀ f, submitted = .error f → f.kind ≠ "ParseError")) ∧
    ∀ (nodes : List NodeSpec) (path : String) (file : File) (checked jobs : List JobSpec) (s : Scheduler),
      poolOf nodes .empty = (s, .ok ()) → s.pool.nodes ≠ [] →
      (FileReading.jobs path file).result = .ok jobs → (∀ j ∈ jobs, (s.checkLabel j.label).2.kind ≠ .error) →
      ∃ t items, (JobSpec.checkAll checked s).1.replay jobs = (t, .ok items) ∧
        List.Forall₂ (fun j item => ∃ e, t.get? item = some e ∧
          ((s.checkLabel j.label).2.kind = .warning → e.state = .pending) ∧
          ((s.checkLabel j.label).2.kind = .ok → e.state = .completed)) jobs items := by
  refine ⟨?_, ?_, ?_⟩
  · intro moves text s hnodes
    exact predicted (Config.run_wellFormed moves) hnodes text
  · intro moves checked jobs s u submitted
    have hopened : s.Reaches (u.openQueue []) := (checkAll_spec checked s).1.effects.tail (.openQueue [])
    obtain ⟨hvalid, hinvalid⟩ :=
      submitAll_of_checkAll s ((Config.run_wellFormed moves).effects hopened) u.queues.length jobs
    refine ⟨hvalid, hinvalid, fun path file hread => ⟨hvalid, fun hsubmitted => ?_⟩⟩
    by_contra hchecked
    obtain ⟨f, hf, hparse | ⟨j, hj, hrefused⟩⟩ := hinvalid (Bool.eq_false_iff.mpr hchecked)
    · exact hsubmitted f hf hparse
    · exact (FileReading.readable hread j hj).not_refused f hrefused
  · intro nodes path file checked jobs s hpool hnodes hread hchecks
    have hfresh : s.Fresh :=
      Fresh.registerAll ⟨.refl, rfl, rfl, fun n hn => absurd hn List.not_mem_nil⟩ hpool
    exact hfresh.foretold hnodes (FileReading.readable hread) hchecks checked

/-- The check of a label that ends too early foretells that it is refused. A file of jobs has one whose label a node
satisfies, one whose label no node satisfies and one that any node may run; no check finds an error, and the job that
no node suits is the one that stays pending. -/
theorem check_predicts_file :
    let moves : List Move := [.ask .lenient (.register "w32" (.text "x"))]
    let nodes : List NodeSpec := [⟨"w32", "x"⟩, ⟨"w64", "x y"⟩]
    let s := (poolOf nodes .empty).1
    let file := File.bytes "task,label\nt,x\nu,x && !x\nv,\n".toUTF8.toList
    let jobs : List JobSpec := [⟨"t", "x", none, none⟩, ⟨"u", "x && !x", none, none⟩, ⟨"v", "", none, none⟩]
    let r := (Config.run moves).state
    r.pool.nodes ≠ [] ∧ r.Predicted "x &&" ∧
      (∀ f, (JobSpec.submitAll r.queues.length jobs (r.openQueue [])).2 = .error f → f.kind ≠ "ParseError") ∧
      poolOf nodes .empty = (s, .ok ()) ∧ s.pool.nodes ≠ [] ∧ (FileReading.jobs "jobs.csv" file).result = .ok jobs ∧
      jobs.map (fun j => (s.checkLabel j.label).2.kind) = [.ok, .warning, .ok] ∧
      ∃ t items, s.replay jobs = (t, .ok items) ∧
        items.map (fun item => (t.get? item).map Entrant.state) =
          [some .completed, some .pending, some .completed] := by
  intro moves nodes s file jobs r
  obtain ⟨hpredicted, hsubmitted, hreplayed⟩ := check_predicts
  have hregistered : r.pool.nodes ≠ [] := by decide +kernel
  have hpool : poolOf nodes .empty = (s, .ok ()) := by
    have hresult : (poolOf nodes .empty).2 = .ok () := by decide +kernel
    exact Prod.ext rfl hresult
  have hnodes : s.pool.nodes ≠ [] := by decide +kernel
  have hread : (FileReading.jobs "jobs.csv" file).result = .ok jobs := by decide +kernel
  have hkinds : jobs.map (fun j => (s.checkLabel j.label).2.kind) = [.ok, .warning, .ok] := by decide +kernel
  have hchecks : ∀ j ∈ jobs, (s.checkLabel j.label).2.kind ≠ .error := by decide +kernel
  have hvalid : (JobSpec.checkAll jobs r).2 = true := by decide +kernel
  obtain ⟨-, -, hiff⟩ := hsubmitted moves [] jobs
  obtain ⟨t, items, hreplay, hitems⟩ := hreplayed nodes "jobs.csv" file [] jobs s hpool hnodes hread hchecks
  refine ⟨hregistered, hpredicted moves "x &&" hregistered, (hiff "jobs.csv" file hread).mp hvalid, hpool, hnodes,
    hread, hkinds, t, items, hreplay, ?_⟩
  simp only [jobs, List.map_cons, List.cons.injEq] at hkinds
  obtain ⟨happroved, hwarned, happroved', -⟩ := hkinds
  unfold jobs at hitems
  rcases hitems with
    _ | ⟨⟨e, he, -, hcompleted⟩, _ | ⟨⟨e', he', hpending, -⟩, _ | ⟨⟨e'', he'', -, hcompleted'⟩, _ | _⟩⟩⟩
  simp only [List.map_cons, List.map_nil, he, he', he'', Option.map_some, hcompleted happroved, hpending hwarned,
    hcompleted' happroved']

/-- Checks do not foretell more than that: the check of a blank text approves of it without naming the node that may
run the job, and a check finds an error in a job that is never submitted, because the job before it is refused for
its task. -/
theorem check_predicts_not_blank_nor_refused :
    let s := (poolOf [⟨"w32", ""⟩] .empty).1
    let jobs : List JobSpec := [⟨"x#y", "", none, none⟩, ⟨"z", "&&", none, none⟩]
    ¬ ((s.checkLabel "").2.kind = .ok →
      ∀ n ∈ s.pool.matching none, n.name.toList <:+: (s.checkLabel "").2.message.toList) ∧
    ¬ ((JobSpec.checkAll jobs s).2 = true ↔
      ∀ f, (JobSpec.submitAll s.queues.length jobs (s.openQueue [])).2 = .error f → f.kind ≠ "ParseError") := by
  intro s jobs
  have hfound : (s.pool.matching none).map Node.name = ["w32"] := by decide +kernel
  have happroved : (s.checkLabel "").2 = ⟨.ok, "Any node may run this job"⟩ := by decide +kernel
  have hrefused : (JobSpec.submitAll s.queues.length jobs (s.openQueue [])).2 = .error (.taskName "x#y") := by
    decide +kernel
  refine ⟨fun hlisted => ?_, fun hiff => ?_⟩
  · obtain ⟨n, hn, hname⟩ := List.mem_map.mp (hfound ▸ List.mem_singleton_self "w32")
    rw [happroved] at hlisted
    exact absurd (hname ▸ hlisted rfl n hn) (by decide)
  · have hchecked : (JobSpec.checkAll jobs s).2 = false := by decide +kernel
    rw [hchecked, hrefused] at hiff
    exact absurd (hiff.mpr fun f hf => by cases hf; decide) (by decide)

end Scheduler

end LabelScheduler
