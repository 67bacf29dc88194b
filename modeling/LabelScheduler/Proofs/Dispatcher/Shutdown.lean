import LabelScheduler.Proofs.Dispatcher.Serving
import LabelScheduler.Proofs.Scheduler.Exclusive

/-!
# Shutting a dispatcher down

A dispatcher that is shut down refuses every further item, but the assignments stand of which it is told. What it was
handed before is worked off as if nothing had happened, and its nodes are freed. What it is handed later, also because
an item completes meanwhile, stays assigned, and no work is ever called for it. From the point of view of everything
else, the dispatcher behaves like one that takes these items and never comes to them, so all that is known of a
dispatcher which serves its queue is known of this one.
-/

namespace LabelScheduler

open Scheduler

/-- The worker begins by a change at the most. -/
theorem Dispatcher.begin_changes (d : Dispatcher) (work : Scheduler → ItemRef → Option Fault) (s : Scheduler) :
    Changes Set.univ s (d.begin work s).2 := by
  unfold Dispatcher.begin
  split
  case h_1 item _ _ _ =>
    have hstarted : Changes Set.univ s (s.started item.queue item).1 := started_changes s (Set.mem_univ _) item
    split
    case h_1 s' _ hresult | h_2 s' _ hresult =>
      rw [hresult] at hstarted
      exact hstarted
  case h_2 => exact .refl

namespace Service

variable {p : Party} {q : Nat} {c : Service} {kept refused : List ItemRef}

/-- The dispatcher takes no further work. -/
def shutDown (c : Service) : Service := { c with dispatcher := c.dispatcher.shutDown }

/-! ### States that parties see -/

/-- What is known of a service in which only operations are under way that proceed by changes. -/
structure Reached (c : Service) : Prop where
  changes : Changes Set.univ .empty c.state
  advances : ∀ w ∈ c.underway, w.waiting.Advances Set.univ

namespace Reached

/-- Nothing has happened. -/
protected theorem initial : Reached .initial := ⟨.refl, fun _ hw => absurd hw List.not_mem_nil⟩

/-- An operation goes on by changes. -/
theorem proceed (h : Reached c) {d : Dialogue Answer} (hd : d.Advances Set.univ c.state) (isReport : Bool) :
    Reached (c.proceed isReport d) := by
  cases d with
  | done t result =>
      cases isReport with
      | false => exact ⟨h.changes.trans hd, h.advances⟩
      | true =>
          have halike := c.dispatcher.finish_alike (result.map fun _ => ()) t
          exact ⟨(h.changes.trans hd).tail (.note halike), h.advances⟩
  | tell t news resume => exact ⟨h.changes.trans hd.1, List.forall_mem_cons.mpr ⟨hd.2, h.advances⟩⟩

/-- Whatever happens is a matter of changes. -/
theorem take (h : Reached c) (p : Party) (act : Act) : Reached (c.take p act) := by
  cases act with
  | ask judge r =>
      simp only [Service.take]
      split
      case isTrue => exact h.proceed (r.perform_advances judge c.state fun _ _ => Set.mem_univ _) false
      case isFalse => exact h
  | hand i =>
      simp only [Service.take]
      split
      case h_1 => exact h
      case h_2 w hw =>
        split
        case h_1 => exact h
        case h_2 item _ =>
          refine ⟨h.changes, fun w' hw' => ?_⟩
          rcases List.mem_or_eq_of_mem_set hw' with hold | rfl
          · exact h.advances w' hold
          · exact h.advances w (List.mem_of_getElem? hw)
  | answer i f =>
      simp only [Service.take]
      split
      case h_1 => exact h
      case h_2 w hw =>
        split
        case h_1 => exact h
        case h_2 f' _ =>
          have hothers : Reached { c with underway := c.underway.eraseIdx i } :=
            ⟨h.changes, fun w' hw' => h.advances w' (List.mem_of_mem_eraseIdx hw')⟩
          exact hothers.proceed (h.advances w (List.mem_of_getElem? hw) c.state f') w.isReport
  | begin work => exact ⟨h.changes.trans (c.dispatcher.begin_changes work c.state), h.advances⟩
  | report judge =>
      simp only [Service.take]
      split
      case h_1 => exact h
      case h_2 item _ _ =>
        split
        case isTrue => exact h
        case isFalse =>
          exact h.proceed ((completed_advances judge (Set.mem_univ item.queue) item c.state).map _) true

/-- So it is with all that happens. -/
theorem acts (h : Reached c) (p : Party) (acts : List Act) : Reached (acts.foldl (Service.take p) c) := by
  induction acts generalizing c with
  | nil => exact h
  | cons act acts ih => exact ih (h.take p act)

end Reached

/-! ### The dispatcher as it would be if it had taken all items -/

/-- The dispatcher as if it had taken these items, too, and were still open. -/
def reopened (refused : List ItemRef) (c : Service) : Service :=
  { c with dispatcher := { c.dispatcher with accepting := true, waiting := c.dispatcher.waiting ++ refused } }

/-- What happens is the same as if the dispatcher had taken the items, and it does not hear of it. -/
structure Mirrored (p : Party) (refused : List ItemRef) (act : Act) (c : Service) : Prop where
  reopened : (c.reopened refused).take p act = (c.take p act).reopened refused
  accepting : (c.take p act).dispatcher.accepting = c.dispatcher.accepting
  handed : (c.take p act).handed = c.handed

namespace Mirrored

variable {act : Act}

/-- Nothing happens. -/
theorem nothing (hsame : c.take p act = c) (hreopened : (c.reopened refused).take p act = c.reopened refused) :
    Mirrored p refused act c :=
  ⟨by rw [hreopened, hsame], by rw [hsame], by rw [hsame]⟩

/-- An operation goes on. -/
theorem proceed (c' : Service) (isReport : Bool) (d : Dialogue Answer) (hdispatcher : c'.dispatcher = c.dispatcher)
    (hhanded : c'.handed = c.handed) (hsame : c.take p act = c'.proceed isReport d)
    (hreopened : (c.reopened refused).take p act = (c'.reopened refused).proceed isReport d) :
    Mirrored p refused act c := by
  have hframe : (c'.proceed isReport d).dispatcher.accepting = c'.dispatcher.accepting ∧
      (c'.proceed isReport d).handed = c'.handed ∧
      (c'.reopened refused).proceed isReport d = (c'.proceed isReport d).reopened refused := by
    cases d with
    | done t result => cases isReport <;> exact ⟨rfl, rfl, rfl⟩
    | tell t news resume => exact ⟨rfl, rfl, rfl⟩
  obtain ⟨haccepting, hkept, hmirrored⟩ := hframe
  exact ⟨by rw [hreopened, hsame, hmirrored], by rw [hsame, haccepting, hdispatcher], by rw [hsame, hkept, hhanded]⟩

/-- Somebody asks for an operation. -/
theorem ask (judge : Judge) (r : Request) : Mirrored p refused (.ask judge r) c := by
  by_cases hopen : r.isOpenIn c.state = true
  · exact .proceed c _ _ rfl rfl (if_pos hopen) (if_pos hopen)
  · exact .nothing (if_neg hopen) (if_neg hopen)

/-- The party comes back for which an operation waits. -/
theorem answer (i : Nat) (f : Option Fault) : Mirrored p refused (.answer i f) c := by
  cases hw : c.underway[i]? with
  | none => exact .nothing (by simp only [Service.take, hw]) (by simp only [Service.take, Service.reopened, hw])
  | some w =>
      cases hanswer : w.answer? p f with
      | none =>
          refine .nothing ?_ ?_
          · simp only [Service.take, hw, hanswer]
          · simp only [Service.take, Service.reopened, hw, hanswer]
      | some f' =>
          refine .proceed { c with underway := c.underway.eraseIdx i } w.isReport (w.waiting.resume c.state f')
            rfl rfl ?_ ?_
          · simp only [Service.take, hw, hanswer]
          · simp only [Service.take, Service.reopened, hw, hanswer]

/-- The worker reports. -/
theorem report (judge : Judge) : Mirrored p refused (.report judge) c := by
  cases hworking : c.dispatcher.working with
  | none =>
      refine .nothing ?_ ?_
      · simp only [Service.take, hworking]
      · simp only [Service.take, Service.reopened, hworking]
  | some w =>
      obtain ⟨item, fault⟩ := w
      have hreporting : (c.reopened refused).isReporting = c.isReporting := rfl
      cases hidle : c.isReporting with
      | true =>
          refine .nothing ?_ ?_
          · simp only [Service.take, hworking, hidle, if_true]
          · simp only [Service.take, hreporting, hidle, if_true]
            simp only [Service.reopened, hworking]
      | false =>
          refine .proceed c true ((Dispatcher.report judge item c.state).map fun _ => .nothing) rfl rfl ?_ ?_
          · simp only [Service.take, hworking, hidle, Bool.false_eq_true, if_false]
          · simp only [Service.take, hreporting, hidle, Bool.false_eq_true, if_false]
            simp only [Service.reopened, hworking]

/-- The worker begins with an item that waits. -/
theorem begin {item : ItemRef} {rest : List ItemRef} (hworking : c.dispatcher.working = none)
    (hwaiting : c.dispatcher.waiting = item :: rest) (work : Scheduler → ItemRef → Option Fault) :
    Mirrored p refused (.begin work) c := by
  constructor <;> simp only [Service.take, Dispatcher.begin, Service.reopened, hworking, hwaiting, List.cons_append]
  case reopened | accepting =>
    cases c.state.started item.queue item with
    | mk s' result => cases result <;> rfl

end Mirrored

/-- What is known of a service whose dispatcher was handed the items `kept` before it was shut down. -/
structure Closing (p : Party) (q : Nat) (kept refused : List ItemRef) (c : Service) : Prop where
  closed : c.dispatcher.accepting = false
  handed : c.handed = kept ++ refused
  serving : Serving p q 1 (c.reopened refused)

/-- Shutting it down changes nothing for the items that it was handed. -/
theorem Serving.shutDown (h : Serving p q 1 c) : Closing p q c.handed [] c.shutDown where
  closed := rfl
  handed := (List.append_nil _).symm
  serving := by
    have hsame : c.shutDown.reopened [] = c := by
      obtain ⟨s, ⟨accepting, waiting, working, called⟩, underway, handed⟩ := c
      obtain rfl : accepting = true := h.inStep.accepting
      simp only [Service.shutDown, Dispatcher.shutDown, reopened, List.append_nil]
    rw [hsame]
    exact h

namespace Closing

/-- What was handed to the dispatcher before has been called or waits. -/
theorem queued (h : Closing p q kept refused c) : kept = c.dispatcher.called ++ c.dispatcher.waiting := by
  have hqueued : c.handed = c.dispatcher.called ++ (c.dispatcher.waiting ++ refused) := h.serving.inStep.queued
  rw [h.handed, ← List.append_assoc] at hqueued
  exact List.append_cancel_right hqueued

/-- What the dispatcher does not hear of happens as if it had taken all items. -/
theorem mirrored (h : Closing p q kept refused c) {act : Act} (hact : Mirrored p refused act c)
    (hserving : Serving p q 1 ((c.reopened refused).take p act)) : Closing p q kept refused (c.take p act) :=
  ⟨hact.accepting.trans h.closed, hact.handed.trans h.handed, hact.reopened ▸ hserving⟩

/-- The dispatcher is told of an assignment and refuses the item. -/
theorem hand (h : Closing p q kept refused c) (i : Nat) : ∃ more, Closing p q kept more (c.take p (.hand i)) := by
  simp only [Service.take]
  split
  case h_1 => exact ⟨refused, h⟩
  case h_2 w hw =>
    split
    case h_1 => exact ⟨refused, h⟩
    case h_2 item hitem =>
      have hrefuses : c.dispatcher.accept item =
          (c.dispatcher, some (.outside "RuntimeError" "cannot schedule new futures after shutdown")) := by
        rw [Dispatcher.accept, h.closed, if_neg Bool.false_ne_true]
      rw [hrefuses]
      refine ⟨refused ++ [item], h.closed, ?_, ?_⟩
      · change c.handed ++ [item] = kept ++ (refused ++ [item])
        rw [h.handed, List.append_assoc]
      · have htaken := h.serving.taken hw hitem
          (some (.outside "RuntimeError" "cannot schedule new futures after shutdown"))
        rw [Dispatcher.accept, if_pos h.serving.inStep.accepting] at htaken
        simp only [reopened, List.append_assoc] at htaken ⊢
        exact htaken

/-- The worker begins with an item that the dispatcher was handed before it was shut down, if there is one. -/
theorem begin (h : Closing p q kept refused c) (work : Scheduler → ItemRef → Option Fault) :
    Closing p q kept refused (c.take p (.begin work)) := by
  have hnothing (hsame : c.dispatcher.begin work c.state = (c.dispatcher, c.state)) :
      Closing p q kept refused (c.take p (.begin work)) := by
    simp only [Service.take, hsame]
    exact h
  cases hworking : c.dispatcher.working with
  | some _ => exact hnothing (by simp only [Dispatcher.begin, hworking])
  | none =>
      cases hwaiting : c.dispatcher.waiting with
      | nil => exact hnothing (by simp only [Dispatcher.begin, hworking, hwaiting])
      | cons item rest => exact h.mirrored (.begin hworking hwaiting work) (h.serving.begin (Nat.le_refl 1) work)

/-- Whatever happens, the dispatcher goes on with what it was handed before, if it is left alone. -/
theorem take (h : Closing p q kept refused c) {act : Act} (hleaves : act.Leaves p q) :
    ∃ more, Closing p q kept more (c.take p act) := by
  cases act with
  | ask judge r => exact ⟨refused, h.mirrored (.ask judge r) (h.serving.ask judge hleaves.1 hleaves.2)⟩
  | hand i => exact h.hand i
  | answer i f => exact ⟨refused, h.mirrored (.answer i f) (h.serving.answer i f)⟩
  | begin work => exact ⟨refused, h.begin work⟩
  | report judge => exact ⟨refused, h.mirrored (.report judge) (h.serving.report judge)⟩

/-- So it does whatever else happens. -/
theorem acts (h : Closing p q kept refused c) {acts : List Act} (hleaves : ∀ act ∈ acts, act.Leaves p q) :
    ∃ more, Closing p q kept more (acts.foldl (Service.take p) c) := by
  induction acts generalizing c refused with
  | nil => exact ⟨refused, h⟩
  | cons act acts ih =>
      obtain ⟨hfirst, hrest⟩ := List.forall_mem_cons.mp hleaves
      obtain ⟨_, hnext⟩ := h.take hfirst
      exact ih hnext hrest

end Closing

/-! ### What a dispatcher that is shut down does -/

/-- What a dispatcher that was handed these items before it was shut down does for the queue that it served. -/
structure Finishes (q : Nat) (kept : List ItemRef) (c : Service) : Prop where
  /-- It takes no further item. -/
  refuses : c.dispatcher.accepting = false
  /-- No item is handed to it twice. -/
  distinct : c.handed.Nodup
  /-- The items that it is handed come after those that it had, -/
  handed : kept <+: c.handed
  /-- and work is called for those that it had, one after the other. -/
  order : kept = c.dispatcher.called ++ c.dispatcher.waiting
  /-- The worker begins with the one that waits first, and this is running as its work is called. -/
  begins : ∀ work item rest, c.dispatcher.working = none → c.dispatcher.waiting = item :: rest →
    ∃ t e, c.dispatcher.begin work c.state =
        ({ c.dispatcher with
            waiting := rest, working := some (item, work t item), called := c.dispatcher.called ++ [item] }, t) ∧
      t.get? item = some e ∧ e.state = .running
  /-- When no work is left, the work of each item that it had has been called once, the item is completed, and a node
  that holds its number holds an item of another queue. -/
  finished : c.dispatcher.isIdle = true → ∀ item ∈ kept, c.dispatcher.called.count item = 1 ∧
    (∃ e, c.state.get? item = some e ∧ e.state = .completed) ∧
    ∀ n ∈ c.state.pool.nodes, n.holds = some item.id → ∃ j, j ≠ q ∧ (c.state.queue j).Owned n item.id
  /-- An item that it is handed later is assigned and stays so, and its work is never called. -/
  stranded : ∀ item ∈ c.handed, item ∉ kept → item ∉ c.dispatcher.called ∧
    ∃ e a, c.state.get? item = some e ∧ e.state = .assigned ∧ e.assignment = some a
  /-- When no work is left and no operation is under way, every item of the queue that was ever assigned is one of
  these, so all of them are completed exactly if nothing was handed to it later. -/
  settled : c.dispatcher.isIdle = true → c.underway = [] →
    (∀ item e a, item.queue = q → c.state.get? item = some e → e.assignment = some a → item ∈ c.handed) ∧
    (c.handed = kept ↔ (c.state.queue q).building = [])

namespace Closing

/-- When no work is left, what the dispatcher was handed before has been called and completed. -/
theorem completed (h : Closing p q kept refused c) (hidle : c.dispatcher.isIdle = true) {item : ItemRef}
    (hitem : item ∈ kept) : item ∈ c.dispatcher.called ∧ ∃ e, c.state.get? item = some e ∧ e.state = .completed := by
  simp only [Dispatcher.isIdle, Bool.and_eq_true, List.isEmpty_iff, Option.isNone_iff_eq_none] at hidle
  obtain ⟨hwaiting, hworking⟩ := hidle
  have hcalled : item ∈ c.dispatcher.called := by rwa [h.queued, hwaiting, List.append_nil] at hitem
  have hdone (fault : Option Fault) : c.dispatcher.working ≠ some (item, fault) := by simp [hworking]
  exact ⟨hcalled, h.serving.serves.completes item hcalled (.inr hdone)⟩

/-- What the dispatcher refused is assigned, and its work has not been called. -/
theorem stranded (h : Closing p q kept refused c) {item : ItemRef} (hitem : item ∈ c.handed) (hnot : item ∉ kept) :
    item ∉ c.dispatcher.called ∧
      ∃ e a, c.state.get? item = some e ∧ e.state = .assigned ∧ e.assignment = some a := by
  have hnew : item ∉ c.dispatcher.called := fun hcalled => hnot (h.queued ▸ List.mem_append_left _ hcalled)
  obtain ⟨e, he, hstate⟩ := h.serving.inStep.exists_staged hitem
  obtain ⟨a, ha, -⟩ := h.serving.inStep.visible.state_of_given he (h.serving.inStep.given item hitem).2
  exact ⟨hnew, e, a, he, hstate.trans (if_neg hnew), ha⟩

/-- When no operation is under way, all that was assigned in the queue has been handed to the dispatcher. -/
theorem handed_of_assigned (h : Closing p q kept refused c) (hnone : c.underway = []) {item : ItemRef}
    (hq : item.queue = q) (hgiven : c.state.given item = true) : item ∈ c.handed := by
  obtain ⟨owed, hdebts, htotal⟩ := h.serving.debts item
  have hnone' : (c.reopened refused).underway = [] := hnone
  rw [hnone'] at hdebts
  cases hdebts
  have htotal' : c.handed.count item = c.state.due p item := htotal
  have hlistens : (c.state.queue item.queue).listeners.count p = 1 :=
    (h.serving.inStep.listens item.queue).trans (if_pos hq)
  rw [due, hgiven, if_pos rfl, hlistens] at htotal'
  exact List.count_pos_iff.mp (Nat.lt_of_lt_of_eq Nat.one_pos htotal'.symm)

/-- When no work is left and no operation is under way, nothing is building exactly if nothing was refused. -/
theorem refused_eq_nil_iff (h : Closing p q kept refused c) (hidle : c.dispatcher.isIdle = true)
    (hnone : c.underway = []) : refused = [] ↔ (c.state.queue q).building = [] := by
  have hqueue : (c.state.queue q).Orderly := h.serving.inStep.visible.wellFormed.queues q
  constructor
  · rintro rfl
    refine List.eq_nil_iff_forall_not_mem.mpr fun id hid => ?_
    obtain ⟨e, he⟩ := hqueue.known (.inr hid)
    have hget : c.state.get? ⟨q, id⟩ = some e := he
    have hbuilding := (hqueue.building_iff he).mp hid
    have hhanded : ⟨q, id⟩ ∈ c.handed :=
      h.handed_of_assigned hnone rfl (h.serving.inStep.visible.given_of_building hget hbuilding)
    rw [h.handed, List.append_nil] at hhanded
    obtain ⟨-, e', he', hstate⟩ := h.completed hidle hhanded
    obtain rfl := Option.some.inj (hget.symm.trans he')
    rw [hstate] at hbuilding
    cases hbuilding
  · intro hempty
    refine List.eq_nil_iff_forall_not_mem.mpr fun item hitem => ?_
    have hhanded : item ∈ c.handed := h.handed ▸ List.mem_append_right _ hitem
    have hdistinct : (kept ++ refused).Nodup := h.handed ▸ h.serving.distinct (Nat.le_refl 1)
    have hnot : item ∉ kept := fun hkept => List.disjoint_of_nodup_append hdistinct hkept hitem
    obtain ⟨-, e, a, he, hstate, -⟩ := h.stranded hhanded hnot
    obtain rfl := (h.serving.inStep.given item hhanded).1
    have hmem := (hqueue.building_iff he).mpr (by rw [hstate]; rfl)
    rw [hempty] at hmem
    exact absurd hmem List.not_mem_nil

/-- This is what a dispatcher does that was handed these items before it was shut down. -/
theorem finishes (h : Closing p q kept refused c) (hreached : Reached c) : c.Finishes q kept where
  refuses := h.closed
  distinct := h.serving.distinct (Nat.le_refl 1)
  handed := ⟨refused, h.handed.symm⟩
  order := h.queued
  begins work item rest hworking hwaiting := by
    have hwaiting' : (c.reopened refused).dispatcher.waiting = item :: (rest ++ refused) := by
      rw [reopened, hwaiting, List.cons_append]
    obtain ⟨e, he, -, hbuilding, -⟩ :=
      h.serving.inStep.begin_eq (h.serving.distinct (Nat.le_refl 1)) hworking hwaiting' work
    refine ⟨c.state.withQueue item.queue (·.start item.id), { e with state := .running }, ?_, ?_, rfl⟩
    · have hstarted : c.state.isBuildingIn item.queue item = true := hbuilding
      simp only [Dispatcher.begin, hworking, hwaiting, started, hstarted, if_true]
    · exact (get?_start he item).trans (if_pos rfl)
  finished hidle item hkept := by
    obtain ⟨hcalled, e, he, hstate⟩ := h.completed hidle hkept
    have honce : c.dispatcher.called.Nodup := h.serving.serves.once
    refine ⟨List.count_eq_one_of_mem honce hcalled, ⟨e, he, hstate⟩, fun n hn hholds => ?_⟩
    obtain ⟨j, howned⟩ := Housed.effects (hreached.changes.effects .empty) n hn item.id hholds
    refine ⟨j, ?_, howned⟩
    rintro rfl
    -- an item that a node holds is building
    obtain rfl := (h.serving.inStep.given item (h.serving.inStep.mem_handed hcalled)).1
    have hbuilding := ((h.serving.inStep.visible.wellFormed.queues item.queue).building_iff he).mp howned.building
    rw [hstate] at hbuilding
    cases hbuilding
  stranded item hitem hnot := h.stranded hitem hnot
  settled hidle hnone := by
    refine ⟨fun item e a hq he ha => h.handed_of_assigned hnone hq (given_of_assignment he ha), ?_⟩
    rw [← h.refused_eq_nil_iff hidle hnone, h.handed, List.append_right_eq_self]

end Closing

end Service

/-- A dispatcher that has served a queue and is shut down at any moment works off what it was handed before, and strands
what it is handed from then on, whatever happens before and after. -/
theorem Service.run_shutDown (p : Party) (q : Nat) (judge : Judge) (earlier later closing : List Service.Act)
    (hleaves : ∀ act ∈ earlier ++ later ++ closing, act.Leaves p q) (hopen : q < (run p earlier).state.queues.length)
    (hnone : ((run p earlier).state.queue q).building = []) :
    let c := run p (earlier ++ .ask judge (.addListener q p) :: later)
    (closing.foldl (take p) c.shutDown).Finishes q c.handed := by
  intro c
  obtain ⟨hbefore, hclosing⟩ := List.forall_mem_append.mp hleaves
  obtain ⟨hearlier, hlater⟩ := List.forall_mem_append.mp hbefore
  have hserving : Serving p q 1 c := by
    have hattached := ((Serving.initial p q).acts (Nat.zero_le 1) hearlier).attach hopen hnone judge
    have hserves := hattached.acts (Nat.le_refl 1) hlater
    rw [← List.foldl_cons, ← run, run, ← List.foldl_append] at hserves
    exact hserves
  have hreached : Reached c.shutDown := by
    have hrun := Reached.initial.acts p (earlier ++ .ask judge (.addListener q p) :: later)
    exact ⟨hrun.changes, hrun.advances⟩
  obtain ⟨refused, hshut⟩ := hserving.shutDown.acts hclosing
  exact hshut.finishes (hreached.acts p closing)

/-- Two items have been handed to the dispatcher when it is shut down while the first is at work. It works both off,
and then both are completed and both nodes are idle. -/
theorem Service.run_shutDown_two_kept :
    let earlier : List Service.Act :=
      [.ask .lenient (.openQueue []), .ask .lenient (.register "a" (.parts [])),
        .ask .lenient (.register "b" (.parts []))]
    let later : List Service.Act :=
      [.ask .lenient (.submit 0 (.plain .none) "t" []), .hand 0, .answer 0 none,
        .ask .lenient (.submit 0 (.plain .none) "u" []), .hand 0, .answer 0 none, .begin fun _ _ => none]
    let closing : List Service.Act := [.report .lenient, .begin fun _ _ => none, .report .lenient]
    let c := run 7 (earlier ++ .ask .lenient (.addListener 0 7) :: later)
    let d := closing.foldl (take 7) c.shutDown
    (∀ act ∈ earlier ++ later ++ closing, act.Leaves 7 0) ∧ 0 < (run 7 earlier).state.queues.length ∧
      ((run 7 earlier).state.queue 0).building = [] ∧ d.Finishes 0 c.handed ∧ c.handed = [⟨0, 1⟩, ⟨0, 2⟩] ∧
      d.dispatcher.isIdle = true ∧ d.dispatcher.called = [⟨0, 1⟩, ⟨0, 2⟩] ∧
      d.state.pool.nodes.map Node.state = [.idle, .idle] ∧
      ∀ item ∈ c.handed, ∃ e, d.state.get? item = some e ∧ e.state = .completed := by
  intro earlier later closing c d
  have hleaves : ∀ act ∈ earlier ++ later ++ closing, act.Leaves 7 0 := by
    simp [earlier, later, closing, Act.Leaves, Request.reportsIn?, Request.attaches]
  have hfinishes : d.Finishes 0 c.handed :=
    run_shutDown 7 0 .lenient earlier later closing hleaves (by decide) (by decide)
  have hidle : d.dispatcher.isIdle = true := by decide
  exact ⟨hleaves, by decide, by decide, hfinishes, by decide, hidle, by decide, by decide,
    fun item hitem => (hfinishes.finished hidle item hitem).2.1⟩

/-- The dispatcher is shut down while the first item is at work and the second waits for the node. As the first item
completes, the second is assigned to the node and handed to the dispatcher, which refuses it. When no work is left, the
second item is still assigned, its work has not been called, and its node is busy. -/
theorem Service.run_shutDown_follow_up_stranded :
    let before : List Service.Act :=
      [.ask .lenient (.openQueue []), .ask .lenient (.register "a" (.parts [])),
        .ask .lenient (.addListener 0 7), .ask .lenient (.submit 0 (.plain .none) "t" []), .hand 0, .answer 0 none,
        .ask .lenient (.submit 0 (.plain .none) "u" []), .begin fun _ _ => none]
    let d := [Service.Act.report .lenient, .hand 0, .answer 0 none].foldl (take 7) (run 7 before).shutDown
    (run 7 before).handed = [⟨0, 1⟩] ∧ d.dispatcher.isIdle = true ∧ d.underway.length = 0 ∧
      d.handed = [⟨0, 1⟩, ⟨0, 2⟩] ∧ d.dispatcher.called = [⟨0, 1⟩] ∧
      (d.state.get? ⟨0, 2⟩).map (fun e => (e.state, e.node)) = some (.assigned, some "a") ∧
      d.state.pool.nodes.map (fun n => (n.state, n.holds)) = [(.busy, some 2)] := by
  decide

end LabelScheduler
