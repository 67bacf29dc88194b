import LabelScheduler.Proofs.Dispatcher.Service
import LabelScheduler.Proofs.Scheduler.Release
import Mathlib.Data.List.Perm.Basic

/-!
# What a dispatcher does

A dispatcher is attached to a queue while nothing is building there, and nobody else reports that work has begun or
ended in the queue. Then, whatever is asked for and however everything is interleaved, each assignment of the queue
has been handed to the dispatcher once, or some operation under way will hand it over; what was handed over waits, is
at work or has been worked on. So work is called once for every assignment, and when no work is left and no operation
is under way, it has been called for all of them, also for those that were made as other items completed.
-/

namespace LabelScheduler

open Scheduler

/-! ### What operations owe the dispatcher -/

/-- The operation under way owes the dispatcher this many news of the assignment of the item. -/
def Underway.Owes (p : Party) (item : ItemRef) (w : Underway) (owed : Nat) : Prop :=
  ∃ later, owed = (if w.pending? p = some item then 1 else 0) + later ∧
    ∀ u f, u.Visible → (w.waiting.resume u f).Owes p item later u

/-- The operations under way together owe the dispatcher this many news of the assignment of the item. -/
inductive Debts (p : Party) (item : ItemRef) : List Underway → Nat → Prop
  | nil : Debts p item [] 0
  | cons {w : Underway} {ws : List Underway} {owed others : Nat} (hw : w.Owes p item owed)
      (hws : Debts p item ws others) : Debts p item (w :: ws) (owed + others)

/-- The order of the operations does not matter. -/
theorem Debts.perm {p : Party} {item : ItemRef} {ws ws' : List Underway} {owed : Nat} (h : Debts p item ws owed)
    (hperm : ws.Perm ws') : Debts p item ws' owed := by
  induction hperm generalizing owed with
  | nil => exact h
  | cons w _ ih =>
      cases h with
      | cons hw hws => exact .cons hw (ih hws)
  | swap w w' ws =>
      cases h with
      | cons hw' hrest =>
          cases hrest with
          | cons hw hws =>
              rw [Nat.add_left_comm]
              exact .cons hw (.cons hw' hws)
  | trans _ _ ih ih' => exact ih' (ih h)

/-! ### Steps -/

namespace Service

variable {p : Party} {q ears : Nat} {c : Service}

/-- What is known of a configuration in which the dispatcher serves the queue, listening to it so often. -/
structure Serving (p : Party) (q ears : Nat) (c : Service) : Prop where
  inStep : c.dispatcher.InStep p q ears c.isReporting c.handed c.state
  advances : ∀ w ∈ c.underway, w.waiting.Advances {j | j ≠ q}
  /-- Each assignment has been handed to the dispatcher, or some operation will do so. -/
  debts : ∀ item, ∃ owed, Debts p item c.underway owed ∧ c.handed.count item + owed = c.state.due p item
  single : c.underway.countP Underway.isReport ≤ 1

/-- What is known when an operation is about to go on. -/
structure Resuming (p : Party) (q ears : Nat) (isReport : Bool) (d : Dialogue Answer) (c : Service) : Prop where
  inStep : c.dispatcher.InStep p q ears (isReport || c.isReporting) c.handed c.state
  advances : ∀ w ∈ c.underway, w.waiting.Advances {j | j ≠ q}
  going : d.Advances {j | j ≠ q} c.state
  debts : ∀ item, ∃ owed own, Debts p item c.underway owed ∧ d.Owes p item own c.state ∧
    c.handed.count item + owed + own = c.state.due p item
  single : c.underway.countP Underway.isReport + isReport.toNat ≤ 1

/-- The worker does not report while no report is under way. -/
theorem isReporting_eq_false_iff : c.isReporting = false ↔ c.underway.countP Underway.isReport = 0 := by
  rw [isReporting, List.any_eq_false, List.countP_eq_zero]

/-- An operation may end, the report of the worker among them. -/
theorem Resuming.ends {isReport : Bool} {t : Scheduler} {result : Except Fault Answer}
    (h : Resuming p q ears isReport (.done t result) c) : Serving p q ears (c.proceed isReport (.done t result)) := by
  have hears (j : Nat) : (t.queue j).listeners.count p = (c.state.queue j).listeners.count p := by
    obtain ⟨_, _, -, hpaid, -⟩ := h.debts ⟨0, 0⟩
    exact hpaid.listeners j
  have hstep := h.inStep.changes h.going hears
  have hdebts (item : ItemRef) : ∃ owed, Debts p item c.underway owed ∧
      c.handed.count item + owed = t.due p item := by
    obtain ⟨owed, own, hdebts, hpaid, htotal⟩ := h.debts item
    have hbalance := hpaid.balance
    exact ⟨owed, hdebts, by omega⟩
  cases isReport with
  | false =>
      rw [Bool.false_or] at hstep
      exact ⟨hstep, h.advances, hdebts, h.single⟩
  | true =>
      have hlast : c.isReporting = false :=
        isReporting_eq_false_iff.mpr (Nat.le_zero.mp (Nat.le_of_succ_le_succ h.single))
      have hquiet : Uneventful t _ := .of_queue (c.dispatcher.finish_alike (result.map fun _ => ()) t).queue
      refine ⟨?_, h.advances, fun item => ?_, Nat.le_of_add_right_le h.single⟩
      · have hfinished := hstep.finish (result.map fun _ => ())
        rw [← hlast] at hfinished
        exact hfinished
      · obtain ⟨owed, hdebts, htotal⟩ := hdebts item
        exact ⟨owed, hdebts, htotal.trans (hquiet.due p item).symm⟩

/-- An operation may wait for a party. -/
theorem Resuming.waits {isReport : Bool} {t : Scheduler} {news : News}
    {resume : Scheduler → Option Fault → Dialogue Answer} (h : Resuming p q ears isReport (.tell t news resume) c) :
    Serving p q ears (c.proceed isReport (.tell t news resume)) := by
  have hears (j : Nat) : (t.queue j).listeners.count p = (c.state.queue j).listeners.count p := by
    obtain ⟨_, _, -, ⟨_, hpaid, -⟩, -⟩ := h.debts ⟨0, 0⟩
    exact hpaid.listeners j
  refine ⟨h.inStep.changes h.going.1 hears, List.forall_mem_cons.mpr ⟨h.going.2, h.advances⟩, fun item => ?_, ?_⟩
  · obtain ⟨owed, own, hdebts, ⟨later, hpaid, hresume⟩, htotal⟩ := h.debts item
    have hbalance := hpaid.balance
    refine ⟨_, .cons ⟨later, rfl, hresume⟩ hdebts, ?_⟩
    change c.handed.count item + (news.tells p item + later + owed) = t.due p item
    omega
  · have hsingle := h.single
    change (Underway.mk ⟨t, news, resume⟩ none isReport :: c.underway).countP Underway.isReport ≤ 1
    rw [List.countP_cons]
    cases isReport <;> simpa using hsingle

/-- When the operation has gone on, it is under way again or it has ended. -/
theorem Resuming.proceed {isReport : Bool} {d : Dialogue Answer} (h : Resuming p q ears isReport d c) :
    Serving p q ears (c.proceed isReport d) := by
  cases d with
  | done t result => exact h.ends
  | tell t news resume => exact h.waits

namespace Serving

/-- An item is due to the dispatcher once at the most, and only if it was assigned in its queue. -/
theorem due_pos (h : Serving p q ears c) {item : ItemRef} (hpos : 0 < c.state.due p item) :
    item.queue = q ∧ c.state.given item = true := by
  rw [due, h.inStep.listens] at hpos
  split at hpos
  case isTrue hgiven =>
    split at hpos
    case isTrue hq => exact ⟨hq, hgiven⟩
    case isFalse => exact absurd hpos (Nat.lt_irrefl 0)
  case isFalse => exact absurd hpos (Nat.lt_irrefl 0)

/-- The dispatcher has been handed an item so often at the most as it listens. -/
theorem count_le (h : Serving p q ears c) (item : ItemRef) : c.handed.count item ≤ ears := by
  obtain ⟨owed, -, htotal⟩ := h.debts item
  have hdue : c.state.due p item ≤ ears := by
    rw [due, h.inStep.listens]
    split
    case isTrue => split <;> omega
    case isFalse => exact Nat.zero_le _
  omega

/-- No item is handed to the dispatcher twice. -/
theorem distinct (h : Serving p q ears c) (hears : ears ≤ 1) : c.handed.Nodup :=
  List.nodup_iff_count_le_one.mpr fun item => (h.count_le item).trans hears

/-- Somebody asks for an operation that leaves the dispatcher alone. -/
theorem ask (h : Serving p q ears c) (judge : Judge) {r : Request} (hreports : r.reportsIn? ≠ some q)
    (hattaches : r.attaches p = false) : Serving p q ears (c.take p (.ask judge r)) := by
  simp only [Service.take]
  split
  case isFalse => exact h
  case isTrue =>
    have hgoing : (r.perform judge c.state).Advances {j | j ≠ q} c.state :=
      r.perform_advances judge c.state fun j hj hq => hreports (hq ▸ hj)
    refine Resuming.proceed ⟨h.inStep, h.advances, hgoing, fun item => ?_, h.single⟩
    obtain ⟨owed, hdebts, htotal⟩ := h.debts item
    exact ⟨owed, 0, hdebts, r.perform_owes h.inStep.visible judge hattaches item, htotal⟩

/-- An operation under way apart from the others. -/
theorem apart {i : Nat} {w : Underway} (hw : c.underway[i]? = some w) :
    (w :: c.underway.eraseIdx i).Perm c.underway := by
  obtain ⟨hi, rfl⟩ := List.getElem?_eq_some_iff.mp hw
  exact List.getElem_cons_eraseIdx_perm hi

/-- The dispatcher takes an assignment of which an operation tells it, whatever the operation hears in reply. -/
theorem taken (h : Serving p q ears c) {i : Nat} {w : Underway} (hw : c.underway[i]? = some w) {item : ItemRef}
    (hitem : w.pending? p = some item) (reply : Option Fault) :
    Serving p q ears
      { c with
        dispatcher := (c.dispatcher.accept item).1
        underway := c.underway.set i { w with reply := some reply }
        handed := c.handed ++ [item] } := by
  let w' : Underway := { w with reply := some reply }
  have hperm := apart hw
  have hset : (c.underway.set i w').Perm (w' :: c.underway.eraseIdx i) :=
    List.set_perm_cons_eraseIdx (List.getElem?_eq_some_iff.mp hw).1 _
  have hassigned : item.queue = q ∧ c.state.given item = true := by
    obtain ⟨owed, hdebts, htotal⟩ := h.debts item
    cases hdebts.perm hperm.symm with
    | cons hown _ =>
        obtain ⟨later, rfl, -⟩ := hown
        rw [if_pos hitem] at htotal
        exact h.due_pos (by omega)
  have hreporting : (c.underway.set i w').any Underway.isReport = c.isReporting := by
    rw [hset.any_eq, isReporting, ← hperm.any_eq]
    rfl
  refine ⟨?_, fun w'' hmem => ?_, fun j => ?_, ?_⟩
  · have haccepted := h.inStep.accept hassigned.1 hassigned.2
    rw [← hreporting] at haccepted
    exact haccepted
  · rcases List.mem_cons.mp (hset.mem_iff.mp hmem) with rfl | hother
    · exact h.advances w (List.mem_of_getElem? hw)
    · exact h.advances w'' (hperm.mem_iff.mp (List.mem_cons_of_mem _ hother))
  · obtain ⟨owed, hdebts, htotal⟩ := h.debts j
    cases hdebts.perm hperm.symm with
    | cons hown hothers =>
        obtain ⟨later, rfl, hresume⟩ := hown
        have hnone : w'.pending? p = none := rfl
        have hown : w'.Owes p j later := ⟨later, by rw [hnone, if_neg nofun, Nat.zero_add], hresume⟩
        refine ⟨_, (Debts.cons hown hothers).perm hset.symm, ?_⟩
        simp only [hitem, Option.some.injEq] at htotal
        simp only [List.count_append, List.count_singleton, beq_iff_eq]
        omega
  · exact (hset.countP_eq _).trans_le ((hperm.countP_eq _).trans_le h.single)

/-- The dispatcher is handed an assignment. -/
theorem hand (h : Serving p q ears c) (i : Nat) : Serving p q ears (c.take p (.hand i)) := by
  simp only [Service.take]
  split
  case h_1 => exact h
  case h_2 w hw =>
    split
    case h_1 => exact h
    case h_2 item hitem => exact h.taken hw hitem _

/-- The party comes back for which an operation waits. -/
theorem answer (h : Serving p q ears c) (i : Nat) (f : Option Fault) : Serving p q ears (c.take p (.answer i f)) := by
  simp only [Service.take]
  split
  case h_1 => exact h
  case h_2 w hw =>
    split
    case h_1 => exact h
    case h_2 f' hanswer =>
      have hperm := apart hw
      have hnone : w.pending? p = none := by
        unfold Underway.answer? at hanswer
        unfold Underway.pending?
        split at hanswer
        case isTrue => rw [hanswer]; rfl
        case isFalse hother => simp_all
      have hreporting : (w.isReport || (c.underway.eraseIdx i).any Underway.isReport) = c.isReporting := by
        rw [isReporting, ← hperm.any_eq]
        rfl
      refine Resuming.proceed ⟨?_, fun w' hw' => ?_, h.advances w (List.mem_of_getElem? hw) _ _, fun item => ?_, ?_⟩
      · have hstep := h.inStep
        rw [← hreporting] at hstep
        exact hstep
      · exact h.advances w' (hperm.mem_iff.mp (List.mem_cons_of_mem _ hw'))
      · obtain ⟨owed, hdebts, htotal⟩ := h.debts item
        cases hdebts.perm hperm.symm with
        | @cons _ _ own others hown hothers =>
            obtain ⟨later, rfl, hresume⟩ := hown
            rw [hnone, if_neg nofun, Nat.zero_add] at htotal
            refine ⟨others, later, hothers, hresume c.state f' h.inStep.visible, ?_⟩
            rw [Nat.add_assoc, Nat.add_comm others]
            exact htotal
      · have hsingle := h.single
        rw [← hperm.countP_eq, List.countP_cons] at hsingle
        cases hreport : w.isReport <;> simpa [hreport] using hsingle

/-- The worker begins with an item. -/
theorem begin (h : Serving p q ears c) (hears : ears ≤ 1) (work : Scheduler → ItemRef → Option Fault) :
    Serving p q ears (c.take p (.begin work)) := by
  obtain ⟨hstep, hquiet⟩ := h.inStep.begin (h.distinct hears) work
  refine ⟨hstep, h.advances, fun item => ?_, h.single⟩
  obtain ⟨owed, hdebts, htotal⟩ := h.debts item
  exact ⟨owed, hdebts, htotal.trans (hquiet.due p item).symm⟩

/-- The worker reports that the work has ended. -/
theorem report (h : Serving p q ears c) (judge : Judge) : Serving p q ears (c.take p (.report judge)) := by
  simp only [Service.take]
  split
  case h_1 => exact h
  case h_2 item fault hworking =>
    split
    case isTrue => exact h
    case isFalse hidle =>
      have hidle : c.isReporting = false := Bool.eq_false_iff.mpr hidle
      have hstep := h.inStep
      rw [hidle] at hstep
      obtain ⟨e, he, -, hbuilding, hreport⟩ := hstep.report_eq hworking judge
      have hended := hstep.ended hworking
      have hquiet := ended_uneventful h.inStep.visible.wellFormed hbuilding
      have hgoing : ((c.state.ended item).maintain judge item.queue).Advances {j | j ≠ q} (c.state.ended item) :=
        maintain_advances judge item.queue _
      have hsame (d : Dialogue Answer) :
          c.proceed true d = { c with state := c.state.ended item }.proceed true d := by
        cases d <;> rfl
      rw [hreport, hsame]
      refine Resuming.proceed ⟨hended, h.advances, (hgoing.returning _).map _, fun item' => ?_, ?_⟩
      · obtain ⟨owed, hdebts, htotal⟩ := h.debts item'
        have howes := maintain_owes hended.visible judge item.queue p item'
        exact ⟨owed, 0, hdebts, (howes.returning _).map _, htotal.trans (hquiet.due p item').symm⟩
      · exact Nat.le_of_eq (congrArg (· + 1) (isReporting_eq_false_iff.mp hidle))

/-- Whatever happens, the dispatcher goes on serving its queue, if it is left alone. -/
theorem take (h : Serving p q ears c) (hears : ears ≤ 1) {act : Act} (hleaves : act.Leaves p q) :
    Serving p q ears (c.take p act) := by
  cases act with
  | ask judge r => exact h.ask judge hleaves.1 hleaves.2
  | hand i => exact h.hand i
  | answer i f => exact h.answer i f
  | begin work => exact h.begin hears work
  | report judge => exact h.report judge

/-- So it does whatever else happens. -/
theorem acts (h : Serving p q ears c) (hears : ears ≤ 1) {acts : List Act} (hleaves : ∀ act ∈ acts, act.Leaves p q) :
    Serving p q ears (acts.foldl (Service.take p) c) := by
  induction acts generalizing c with
  | nil => exact h
  | cons act acts ih =>
      obtain ⟨hfirst, hrest⟩ := List.forall_mem_cons.mp hleaves
      exact ih (h.take hears hfirst) hrest

/-- Before anything has happened there is nobody to listen. -/
theorem initial (p : Party) (q : Nat) : Serving p q 0 .initial where
  inStep :=
    { visible := ⟨.empty, fun item e he => absurd (lt_of_get? he) (Nat.not_lt_zero _)⟩
      listens := fun j => by split <;> rfl
      accepting := rfl
      queued := rfl
      given := fun item hitem => absurd hitem List.not_mem_nil
      staged := fun item e _ he => absurd (lt_of_get? he) (Nat.not_lt_zero _)
      called := nofun
      reporting := nofun }
  advances w hw := absurd hw List.not_mem_nil
  debts item := by
    have hnone : Scheduler.empty.due p item = 0 := by
      unfold due
      split <;> rfl
    exact ⟨0, .nil, hnone.symm⟩
  single := Nat.zero_le 1

/-- Where nobody has listened and nothing is building, no item of the queue has been assigned. -/
theorem not_given (h : Serving p q 0 c) (hnone : (c.state.queue q).building = []) {item : ItemRef}
    (hq : item.queue = q) : c.state.given item = false := by
  have hempty : c.handed = [] := by
    refine List.eq_nil_iff_forall_not_mem.mpr fun item hitem => ?_
    exact absurd (h.count_le item) (Nat.not_le.mpr (List.count_pos_iff.mpr hitem))
  have hcalled : c.dispatcher.called = [] := by
    have hqueued := h.inStep.queued
    rw [hempty] at hqueued
    exact (List.append_eq_nil_iff.mp hqueued.symm).1
  refine Bool.eq_false_iff.mpr fun hgiven => ?_
  obtain ⟨e, he⟩ := exists_of_given hgiven
  have hstate := h.inStep.staged item e hq he hgiven
  rw [Dispatcher.stage, hcalled, if_neg List.not_mem_nil] at hstate
  have hmem := (mem_of_isBuildingIn (h.inStep.isBuildingIn he (by rw [hstate]; rfl))).2
  rw [hq, hnone] at hmem
  exact absurd hmem List.not_mem_nil

/-- The dispatcher is attached to its queue while nothing is building there. -/
theorem attach (h : Serving p q 0 c) (hopen : q < c.state.queues.length) (hnone : (c.state.queue q).building = [])
    (judge : Judge) : Serving p q 1 (c.take p (.ask judge (.addListener q p))) := by
  have hask : c.take p (.ask judge (.addListener q p)) = { c with state := c.state.addListener q p } := by
    have hopen : (Request.addListener q p).isOpenIn c.state = true := by
      simpa [Request.isOpenIn, Request.queue?] using hopen
    simp only [Service.take, if_pos hopen]
    rfl
  have hlistens (j : Nat) : ((c.state.addListener q p).queue j).listeners.count p = if j = q then 1 else 0 := by
    have hbefore := h.inStep.listens j
    rw [ite_self] at hbefore
    rw [addListener, queue_withQueue]
    by_cases hj : j = q
    · rw [if_pos ⟨hj, hopen⟩, if_pos hj, List.count_append, hbefore, List.count_singleton_self]
    · rw [if_neg fun hboth => hj hboth.1, if_neg hj, hbefore]
  have hgiven := given_addListener c.state q p
  have hlisten : Changes Set.univ c.state (c.state.addListener q p) := .single (.listen q p)
  rw [hask]
  exact
    { inStep :=
        { visible := h.inStep.visible.changes hlisten
          listens := hlistens
          accepting := h.inStep.accepting
          queued := h.inStep.queued
          given := fun item hitem => ⟨(h.inStep.given item hitem).1, (hgiven item).trans (h.inStep.given item hitem).2⟩
          staged := fun item e hq he hassigned =>
            h.inStep.staged item e hq ((get?_addListener ..).symm.trans he) ((hgiven item).symm.trans hassigned)
          called := h.inStep.called
          reporting := h.inStep.reporting }
      advances := h.advances
      debts := fun item => by
        obtain ⟨owed, hdebts, htotal⟩ := h.debts item
        refine ⟨owed, hdebts, htotal.trans ?_⟩
        rw [due, due, hgiven, hlistens, h.inStep.listens, ite_self]
        by_cases hq : item.queue = q
        · rw [h.not_given hnone hq]
          rfl
        · rw [if_neg hq]
      single := h.single }

end Serving

/-! ### What a dispatcher does -/

/-- What a dispatcher has done for the queue that it serves, and what it does next. -/
structure Serves (q : Nat) (c : Service) : Prop where
  /-- Work is called for an item once at the most, -/
  once : c.dispatcher.called.Nodup
  /-- in the order in which the dispatcher was handed the items, -/
  order : c.dispatcher.called <+: c.handed
  /-- which were assigned in its queue. -/
  handed : ∀ item ∈ c.handed, item.queue = q ∧ ∃ e a, c.state.get? item = some e ∧ e.assignment = some a
  /-- The worker begins with the item that waits first, and this is running as its work is called. -/
  begins : ∀ work item rest, c.dispatcher.working = none → c.dispatcher.waiting = item :: rest →
    ∃ t e, c.dispatcher.begin work c.state =
        ({ c.dispatcher with
            waiting := rest, working := some (item, work t item), called := c.dispatcher.called ++ [item] }, t) ∧
      t.get? item = some e ∧ e.state = .running
  /-- An item is running exactly while it is at work, that is until the end of its work is reported. -/
  runs : ∀ item e, item.queue = q → c.state.get? item = some e →
    (e.state = .running ↔ c.isReporting = false ∧ ∃ fault, c.dispatcher.working = some (item, fault))
  /-- However the work ends, the report completes the item and frees the node that was given the item if it still
  holds it, and then the queue is matched. -/
  ends : ∀ judge item fault, c.dispatcher.working = some (item, fault) → c.isReporting = false →
    ∃ e a, c.state.get? item = some e ∧ e.assignment = some a ∧
      Dispatcher.report judge item c.state = ((c.state.ended item).maintain judge q).returning (fun _ => ()) ∧
      (c.state.ended item).get? item = some { e with state := .completed } ∧
      (c.state.ended item).pool.nodes = c.state.pool.nodes.map fun n =>
        if n.name = a.node ∧ n.holds = some item.id then { n with state := .idle, holds := none } else n
  /-- From then on the item is completed. -/
  completes : ∀ item ∈ c.dispatcher.called,
    (c.isReporting = true ∨ ∀ fault, c.dispatcher.working ≠ some (item, fault)) →
    ∃ e, c.state.get? item = some e ∧ e.state = .completed
  /-- If no work is left, and no operation is under way but perhaps a report, then nothing is building, and for every
  item of the queue that was ever assigned the work was called once. -/
  idle : c.dispatcher.isIdle = true → (∀ w ∈ c.underway, w.isReport = true) →
    (c.state.queue q).building = [] ∧ ∀ item e a, item.queue = q → c.state.get? item = some e →
      e.assignment = some a → c.dispatcher.called.count item = 1 ∧ e.state = .completed

/-- When no work is left, and no operation is under way but perhaps a report, the work of each item that was assigned
has been called once, and the item is done with. -/
theorem Serving.worked_off (h : Serving p q 1 c) (hidle : c.dispatcher.isIdle = true)
    (hunderway : ∀ w ∈ c.underway, w.isReport = true) (item : ItemRef) (hq : item.queue = q)
    (hgiven : c.state.given item = true) :
    c.dispatcher.called.count item = 1 ∧ c.dispatcher.stage c.isReporting item = .completed := by
  simp only [Dispatcher.isIdle, Bool.and_eq_true, List.isEmpty_iff, Option.isNone_iff_eq_none] at hidle
  obtain ⟨hwaiting, hworking⟩ := hidle
  -- a report would have its item at work
  have hreporting : c.isReporting = false :=
    Bool.eq_false_iff.mpr fun hreporting => h.inStep.reporting hreporting hworking
  have hnone : c.underway = [] := by
    refine List.eq_nil_iff_forall_not_mem.mpr fun w hw => ?_
    exact List.any_eq_false.mp hreporting w hw (hunderway w hw)
  have hcount : c.dispatcher.called.count item = 1 := by
    obtain ⟨owed, hdebts, htotal⟩ := h.debts item
    rw [hnone] at hdebts
    cases hdebts
    rw [h.inStep.queued, hwaiting, List.append_nil, due, hgiven, h.inStep.listens, if_pos hq, if_pos rfl] at htotal
    exact htotal
  refine ⟨hcount, Dispatcher.stage_of_called (List.count_pos_iff.mp (by omega)) fun hrunning => ?_⟩
  obtain ⟨-, fault, hatWork⟩ := (Dispatcher.stage_eq_running h.inStep.called item).mp hrunning
  cases hworking.symm.trans hatWork

/-- This is what a dispatcher does that listens to its queue. -/
theorem Serving.serves (h : Serving p q 1 c) : c.Serves q where
  once := by
    have hdistinct := h.distinct (Nat.le_refl 1)
    rw [h.inStep.queued] at hdistinct
    exact hdistinct.of_append_left
  order := ⟨c.dispatcher.waiting, h.inStep.queued.symm⟩
  handed item hitem := by
    obtain ⟨hq, hgiven⟩ := h.inStep.given item hitem
    obtain ⟨e, he⟩ := exists_of_given hgiven
    obtain ⟨a, ha, -⟩ := h.inStep.visible.state_of_given he hgiven
    exact ⟨hq, e, a, he, ha⟩
  begins work item rest hworking hwaiting := by
    obtain ⟨e, he, -, -, hbegin⟩ := h.inStep.begin_eq (h.distinct (Nat.le_refl 1)) hworking hwaiting work
    exact ⟨_, _, hbegin, by rw [get?_start he, if_pos rfl], rfl⟩
  runs item e hq he := by
    rw [← Dispatcher.stage_eq_running h.inStep.called item]
    refine ⟨fun hrunning => ?_, fun hstage => ?_⟩
    · have hgiven := h.inStep.visible.given_of_building he (by rw [hrunning]; rfl)
      exact (h.inStep.staged item e hq he hgiven).symm.trans hrunning
    · obtain ⟨-, fault, hworking⟩ := (Dispatcher.stage_eq_running h.inStep.called item).mp hstage
      obtain ⟨e', he', hstate⟩ := h.inStep.exists_staged (h.inStep.mem_handed (h.inStep.called item fault hworking))
      obtain rfl := Option.some.inj (he.symm.trans he')
      exact hstate.trans hstage
  ends judge item fault hworking hidle := by
    have hstep := h.inStep
    rw [hidle] at hstep
    obtain ⟨e, he, -, -, hreport⟩ := hstep.report_eq hworking judge
    obtain ⟨hq, hgiven⟩ := hstep.given item (hstep.mem_handed (hstep.called item fault hworking))
    obtain ⟨a, ha, -⟩ := hstep.visible.state_of_given he hgiven
    refine ⟨e, a, he, ha, hq ▸ hreport, ?_, nodes_conclude hstep.visible.wellFormed he ha⟩
    exact (get?_conclude he item).trans (if_pos rfl)
  completes item hcalled hdone := by
    obtain ⟨e, he, hstate⟩ := h.inStep.exists_staged (h.inStep.mem_handed hcalled)
    refine ⟨e, he, hstate.trans (Dispatcher.stage_of_called hcalled fun hrunning => ?_)⟩
    obtain ⟨hreporting, fault, hworking⟩ := (Dispatcher.stage_eq_running h.inStep.called item).mp hrunning
    rcases hdone with hreports | hother
    · cases hreports.symm.trans hreporting
    · exact hother fault hworking
  idle hidle hunderway := by
    have hworked := h.worked_off hidle hunderway
    refine ⟨List.eq_nil_iff_forall_not_mem.mpr fun id hid => ?_, fun item e a hq he ha => ?_⟩
    · obtain ⟨e, he⟩ := (h.inStep.visible.wellFormed.queues q).known (.inr hid)
      have hbuilding := ((h.inStep.visible.wellFormed.queues q).building_iff he).mp hid
      have hget : c.state.get? ⟨q, id⟩ = some e := he
      have hgiven := h.inStep.visible.given_of_building hget hbuilding
      rw [h.inStep.staged ⟨q, id⟩ e rfl hget hgiven, (hworked ⟨q, id⟩ rfl hgiven).2] at hbuilding
      cases hbuilding
    · have hgiven := given_of_assignment he ha
      obtain ⟨hcount, hstage⟩ := hworked item hq hgiven
      exact ⟨hcount, (h.inStep.staged item e hq he hgiven).trans hstage⟩

end Service

/-- A dispatcher that is attached to a queue while nothing is building there, and is left alone by everybody else, works
for the queue like this, whatever happens before and after, in whatever order operations, the parties that they tell
and the worker go on, and however the work on items ends. -/
theorem Service.run_serves (p : Party) (q : Nat) (judge : Judge) (earlier later : List Service.Act)
    (hleaves : ∀ act ∈ earlier ++ later, act.Leaves p q) (hopen : q < (run p earlier).state.queues.length)
    (hnone : ((run p earlier).state.queue q).building = []) :
    (run p (earlier ++ .ask judge (.addListener q p) :: later)).Serves q := by
  obtain ⟨hearlier, hlater⟩ := List.forall_mem_append.mp hleaves
  have hbefore : Serving p q 0 (run p earlier) := (Serving.initial p q).acts (Nat.zero_le 1) hearlier
  rw [run, List.foldl_append]
  exact ((hbefore.attach hopen hnone judge).acts (Nat.le_refl 1) hlater).serves

/-- The first item fails at work, before the submission goes on that told the dispatcher of it, and the second is let go
as the first completes. When no work is left, work has been called for both and both are completed. -/
theorem Service.run_serves_follow_up :
    let earlier : List Service.Act := [.ask .lenient (.openQueue []), .ask .lenient (.register "a" (.parts []))]
    let attach : Service.Act := .ask .lenient (.addListener 0 7)
    let later : List Service.Act :=
      [.ask .lenient (.submit 0 (.plain .none) "t" []), .hand 0,
        .begin fun _ _ => some (.outside "RuntimeError" "build failed"),
        .answer 0 none, .ask .lenient (.submit 0 (.plain .none) "u" []), .report .lenient, .hand 0, .answer 0 none,
        .begin fun _ _ => none, .report .lenient]
    let c := run 7 (earlier ++ attach :: later)
    (∀ act ∈ earlier ++ later, act.Leaves 7 0) ∧ 0 < (run 7 earlier).state.queues.length ∧
      ((run 7 earlier).state.queue 0).building = [] ∧ c.Serves 0 ∧ c.dispatcher.called = [⟨0, 1⟩, ⟨0, 2⟩] ∧
      c.dispatcher.isIdle = true ∧ (c.state.queue 0).building = [] := by
  intro earlier attach later c
  have hleaves : ∀ act ∈ earlier ++ later, act.Leaves 7 0 := by
    simp [earlier, later, Act.Leaves, Request.reportsIn?, Request.attaches]
  have hserves : c.Serves 0 := run_serves 7 0 .lenient earlier later hleaves (by decide) (by decide)
  have hidle : c.dispatcher.isIdle = true := by decide
  have hunderway : ∀ w ∈ c.underway, w.isReport = true := List.all_eq_true.mp (by decide)
  exact ⟨hleaves, by decide, by decide, hserves, by decide, hidle, (hserves.idle hidle hunderway).1⟩

end LabelScheduler
