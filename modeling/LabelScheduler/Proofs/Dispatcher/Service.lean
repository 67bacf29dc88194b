import LabelScheduler.Dispatcher
import LabelScheduler.Proofs.Dispatcher.Handing

/-!
# A dispatcher at work

While a dispatcher serves a queue, operations are asked for by anybody, its worker begins with the next item and
reports that the work has ended, and all of this may be interleaved at will: whenever an operation waits for a party,
others go on. An operation that tells the dispatcher of an assignment hands it the item first and goes on later.
Every item of the queue is then in the stage in which the dispatcher has it: it is assigned until its work is called,
it is running while it is at work, and it is completed from when the worker reports its end.
-/

namespace LabelScheduler

open Scheduler

/-! ### Configurations -/

/-- An operation that is under way, waiting for a party. If this is the dispatcher, `reply` is its answer, once it has
been handed the assignment; `isReport` says that the operation is the report of the worker. -/
structure Underway where
  waiting : Waiting
  reply : Option (Option Fault)
  isReport : Bool

/-- A state with a dispatcher, the operations that are under way, and the items that the dispatcher was handed so far,
in order. -/
structure Service where
  state : Scheduler
  dispatcher : Dispatcher
  underway : List Underway
  handed : List ItemRef

/-- What may happen next: an operation is asked for, the dispatcher is handed the assignment of which an operation
tells it, the party for which an operation waits comes back, the worker begins with an item, or it reports that the
work has ended. -/
inductive Service.Act where
  | ask (judge : Judge) (r : Request)
  | hand (i : Nat)
  | answer (i : Nat) (f : Option Fault)
  | begin (work : Scheduler → ItemRef → Option Fault)
  | report (judge : Judge)

namespace Underway

/-- The item that the dispatcher is yet to be handed. -/
def pending? (p : Party) (w : Underway) : Option ItemRef :=
  if w.reply.isNone then w.waiting.news.handedTo p else none

/-- With what the operation goes on: the answer of the dispatcher, if this has one, or that of another party. -/
def answer? (p : Party) (f : Option Fault) (w : Underway) : Option (Option Fault) :=
  if (w.waiting.news.handedTo p).isSome then w.reply else some f

end Underway

namespace Service

/-- Nothing has happened. -/
def initial : Service := ⟨.empty, .initial, [], []⟩

/-- The worker is reporting. -/
def isReporting (c : Service) : Bool := c.underway.any Underway.isReport

/-- Go on with an operation. The worker is done when its report has ended. -/
def proceed (c : Service) (isReport : Bool) : Dialogue Answer → Service
  | .done t result =>
    if isReport then
      let (d, t') := c.dispatcher.finish (result.map fun _ => ()) t
      { c with state := t', dispatcher := d }
    else { c with state := t }
  | .tell t news resume => { c with state := t, underway := ⟨⟨t, news, resume⟩, none, isReport⟩ :: c.underway }

/-- Let something happen, with the dispatcher being this party; what is not possible changes nothing. -/
def take (p : Party) (c : Service) : Act → Service
  | .ask judge r => if r.isOpenIn c.state then c.proceed false (r.perform judge c.state) else c
  | .hand i =>
    match c.underway[i]? with
    | none => c
    | some w =>
      match w.pending? p with
      | none => c
      | some item =>
        let (d, reply) := c.dispatcher.accept item
        { c with
          dispatcher := d
          underway := c.underway.set i { w with reply := some reply }
          handed := c.handed ++ [item] }
  | .answer i f =>
    match c.underway[i]? with
    | none => c
    | some w =>
      match w.answer? p f with
      | none => c
      | some f' => { c with underway := c.underway.eraseIdx i }.proceed w.isReport (w.waiting.resume c.state f')
  | .begin work =>
    let (d, s) := c.dispatcher.begin work c.state
    { c with dispatcher := d, state := s }
  | .report judge =>
    match c.dispatcher.working with
    | none => c
    | some (item, _) =>
      if c.isReporting then c
      else c.proceed true ((Dispatcher.report judge item c.state).map fun _ => .nothing)

/-- Let several things happen, one after the other. -/
def run (p : Party) (acts : List Act) : Service := acts.foldl (take p) initial

end Service

/-- The dispatcher is left alone: nobody else reports that work has begun or ended in the queue, and the dispatcher is
attached to no queue. -/
def Service.Act.Leaves (p : Party) (q : Nat) : Service.Act → Prop
  | .ask _ r => r.reportsIn? ≠ some q ∧ r.attaches p = false
  | _ => True

/-! ### Items in their stages -/

/-- The stage in which the dispatcher has an item, while its worker is reporting or not: assigned until its work is
called, running while it is at work, and completed from when it is reported. -/
def Dispatcher.stage (d : Dispatcher) (reporting : Bool) (item : ItemRef) : ItemState :=
  if item ∈ d.called then if !reporting && d.working.any (·.1 == item) then .running else .completed else .assigned

namespace Scheduler

variable {s t : Scheduler} {q : Nat} {item : ItemRef} {e e' : Entrant}

/-- An item that was assigned is known. -/
theorem exists_of_given (h : s.given item = true) : ∃ e, s.get? item = some e := by
  cases he : s.get? item with
  | none => rw [given, he] at h; cases h
  | some e => exact ⟨e, rfl⟩

/-- An item that was assigned is neither pending nor cancelled. -/
theorem Visible.state_of_given (h : s.Visible) (he : s.get? item = some e) (hgiven : s.given item = true) :
    ∃ a, e.assignment = some a ∧ e.state ≠ .pending ∧ e.state ≠ .cancelled := by
  rw [given, he, Option.any_some] at hgiven
  cases h.consistent item e he with
  | waits _ ha _ => rw [ha] at hgiven; cases hgiven
  | given a hstate ha _ => exact ⟨a, ha, hstate⟩
  | withdrawn _ ha _ => rw [ha] at hgiven; cases hgiven

/-- An item that is assigned or running has been assigned. -/
theorem Visible.given_of_building (h : s.Visible) (he : s.get? item = some e) (hb : e.state.isBuilding = true) :
    s.given item = true := by
  obtain ⟨a, ha, -⟩ := (h.consistent item e he).of_building hb
  exact given_of_assignment he ha

/-- An item of a queue in which nothing is reported stays in its state from when it is assigned. -/
theorem Change.state_of_given {reported : Set Nat} (hs : s.Visible) (hst : Change reported s t)
    (hitem : item.queue ∉ reported) (he : s.get? item = some e) (hgiven : s.given item = true) :
    ∃ e', t.get? item = some e' ∧ e'.state = e.state ∧ t.given item = true := by
  obtain ⟨e', he', hfate⟩ := hst.fate hs.wellFormed he
  obtain ⟨a, ha, hpending, -⟩ := hs.state_of_given he hgiven
  refine ⟨e', he', ?_⟩
  cases hfate with
  | spared watchers => exact ⟨rfl, given_of_assignment he' ha⟩
  | assigned _ hstate => exact absurd hstate hpending
  | cancelled hstate => exact absurd hstate hpending
  | started hreporting _ => exact absurd hreporting hitem
  | completed hreporting _ => exact absurd hreporting hitem

/-- An item that a change assigns is in the state that says so. -/
theorem Change.state_of_new {reported : Set Nat} (hs : s.Visible) (hst : Change reported s t)
    (hitem : item.queue ∉ reported) (hnew : s.given item = false) (he' : t.get? item = some e')
    (hgiven : t.given item = true) : e'.state = .assigned := by
  rw [given, he', Option.any_some] at hgiven
  cases hst.descent hs.wellFormed he' with
  | entered i _ hfresh => rw [hfresh] at hgiven; cases hgiven
  | stayed he hfate =>
      rw [given, he, Option.any_some] at hnew
      cases hfate with
      | spared watchers => cases hnew.symm.trans hgiven
      | assigned a _ => rfl
      | cancelled _ => cases hnew.symm.trans hgiven
      | started hreporting _ => exact absurd hreporting hitem
      | completed hreporting _ => exact absurd hreporting hitem

/-- An item that is reported running is found so, and the others are as they were. -/
theorem get?_start (he : s.get? item = some e) (j : ItemRef) : (s.withQueue item.queue (·.start item.id)).get? j =
    if j = item then some { e with state := .running } else s.get? j :=
  get?_of_update he (fun _ _ => rfl) j

/-- An item that completes is found so, and the others are as they were. -/
theorem get?_conclude (he : s.get? item = some e) (j : ItemRef) : (s.conclude item.queue item).get? j =
    if j = item then some { e with state := .completed } else s.get? j := by
  rw [(conclude_alike s item.queue item).get?]
  change (s.withQueue item.queue (·.complete item.id)).get? j = _
  refine get?_of_update (g := fun e => { e with state := .completed }) he ?_ j
  exact fun _ _ => Queue.get?_congr rfl _

/-- The state in which the work on an item has been reported ended, before its queue is matched. -/
def ended (item : ItemRef) (s : Scheduler) : Scheduler :=
  (s.conclude item.queue item).log (.itemCompleted item.id ((s.get? item).bind Entrant.node))

/-- With the end of the work nothing is assigned. -/
theorem ended_uneventful (hs : s.WellFormed) (h : s.isBuildingIn item.queue item = true) :
    Uneventful s (s.ended item) :=
  (conclude_uneventful hs h).trans (.of_queue fun _ => rfl)

end Scheduler

namespace Dispatcher

variable {p : Party} {q ears : Nat} {reporting : Bool} {handed : List ItemRef} {d : Dispatcher} {s t : Scheduler}

/-- The stage of an item is that it is running exactly while it is at work and the worker does not report. -/
theorem stage_eq_running (hcalled : ∀ item fault, d.working = some (item, fault) → item ∈ d.called)
    (item : ItemRef) :
    d.stage reporting item = .running ↔ reporting = false ∧ ∃ fault, d.working = some (item, fault) := by
  have hatWork : d.working.any (·.1 == item) = true ↔ ∃ fault, d.working = some (item, fault) := by
    cases hworking : d.working with
    | none => simp
    | some w =>
        obtain ⟨i, fault⟩ := w
        simp
  rw [← hatWork, stage]
  by_cases hitem : item ∈ d.called
  · cases reporting <;> simp [hitem]
  · have hnot : ¬ d.working.any (·.1 == item) = true := fun h => by
      obtain ⟨fault, hworking⟩ := hatWork.mp h
      exact hitem (hcalled item fault hworking)
    simp [hitem, hnot]

/-- An item whose work was called is completed unless it is running. -/
theorem stage_of_called {item : ItemRef} (hitem : item ∈ d.called) (hne : d.stage reporting item ≠ .running) :
    d.stage reporting item = .completed := by
  rw [stage, if_pos hitem] at hne ⊢
  split
  case isTrue hrunning => exact absurd (if_pos hrunning) hne
  case isFalse => rfl

/-- The dispatcher, which serves this queue and has been handed these items, is in step with the scheduler. -/
structure InStep (p : Party) (q ears : Nat) (reporting : Bool) (handed : List ItemRef) (d : Dispatcher)
    (s : Scheduler) : Prop where
  visible : s.Visible
  /-- It listens to its queue so often, and to no other. -/
  listens : ∀ j, (s.queue j).listeners.count p = if j = q then ears else 0
  accepting : d.accepting = true
  /-- Work has been called for the first of the items that were handed to it, and the others wait. -/
  queued : handed = d.called ++ d.waiting
  given : ∀ item ∈ handed, item.queue = q ∧ s.given item = true
  staged : ∀ item e, item.queue = q → s.get? item = some e → s.given item = true → e.state = d.stage reporting item
  called : ∀ item fault, d.working = some (item, fault) → item ∈ d.called
  reporting : reporting = true → d.working ≠ none

/-- That the worker is done is noted at the most. -/
theorem finish_alike (d : Dispatcher) (reported : Except Fault Unit) (s : Scheduler) :
    Alike s (d.finish reported s).2 := by
  unfold Dispatcher.finish
  extract_lets fault
  clear_value fault
  cases fault with
  | none => exact .refl s
  | some f => exact .log s _

/-- What holds of the dispatcher and its queue in every state that parties can see, whoever listens. -/
structure Keeps (q : Nat) (reporting : Bool) (handed : List ItemRef) (d : Dispatcher) (s : Scheduler) : Prop where
  visible : s.Visible
  given : ∀ item ∈ handed, item.queue = q ∧ s.given item = true
  staged : ∀ item e, item.queue = q → s.get? item = some e → s.given item = true → e.state = d.stage reporting item

/-- A change keeps it so if nothing is reported in the queue: items that were assigned stay in their stages, and those
that it assigns are new to the dispatcher. -/
theorem Keeps.change (h : d.Keeps q reporting handed s) (hcalled : ∀ item ∈ d.called, item ∈ handed)
    (hst : Change {j | j ≠ q} s t) : d.Keeps q reporting handed t where
  visible := h.visible.changes (.single hst)
  given item hitem := by
    obtain ⟨hq, hgiven⟩ := h.given item hitem
    obtain ⟨e, he⟩ := exists_of_given hgiven
    obtain ⟨e', -, -, hafter⟩ := hst.state_of_given h.visible (fun hne => hne hq) he hgiven
    exact ⟨hq, hafter⟩
  staged item e' hq he' hafter := by
    cases hbefore : s.given item with
    | true =>
        obtain ⟨e, he⟩ := exists_of_given hbefore
        obtain ⟨e'', he'', hsame, -⟩ := hst.state_of_given h.visible (fun hne => hne hq) he hbefore
        obtain rfl := Option.some.inj (he'.symm.trans he'')
        exact hsame.trans (h.staged item e hq he hbefore)
    | false =>
        have hnew : item ∉ d.called := fun hitem => by
          cases hbefore.symm.trans (h.given item (hcalled item hitem)).2
        rw [hst.state_of_new h.visible (fun hne => hne hq) hbefore he' hafter, stage, if_neg hnew]

namespace InStep

/-- An item whose work was called was handed to the dispatcher. -/
theorem mem_handed (h : d.InStep p q ears reporting handed s) {item : ItemRef} (hitem : item ∈ d.called) :
    item ∈ handed :=
  h.queued ▸ List.mem_append_left _ hitem

/-- Whatever happens while nothing is reported in its queue, the dispatcher stays in step. -/
theorem changes (h : d.InStep p q ears reporting handed s) (hst : Changes {j | j ≠ q} s t)
    (hears : ∀ j, (t.queue j).listeners.count p = (s.queue j).listeners.count p) :
    d.InStep p q ears reporting handed t := by
  have hkeeps : d.Keeps q reporting handed t :=
    hst.preserve (fun _ hkeeps hchange => hkeeps.change (fun _ => h.mem_handed) hchange) h.visible.wellFormed
      ⟨h.visible, h.given, h.staged⟩
  exact
    { visible := hkeeps.visible
      listens := fun j => (hears j).trans (h.listens j)
      accepting := h.accepting
      queued := h.queued
      given := hkeeps.given
      staged := hkeeps.staged
      called := h.called
      reporting := h.reporting }

/-- When the report has ended, the worker is done, and what was at work stays completed. -/
theorem finish (h : d.InStep p q ears true handed s) (reported : Except Fault Unit) :
    (d.finish reported s).1.InStep p q ears false handed (d.finish reported s).2 := by
  have halike := d.finish_alike reported s
  have hstep := h.changes (.single (.note halike)) fun j => by rw [halike.queue]
  exact
    { visible := hstep.visible
      listens := hstep.listens
      accepting := hstep.accepting
      queued := hstep.queued
      given := hstep.given
      staged := fun item e hq he hgiven => by
        rw [hstep.staged item e hq he hgiven]
        simp [Dispatcher.finish, stage]
      called := nofun
      reporting := nofun }

/-- The dispatcher may be handed an item that was assigned in its queue. -/
theorem accept (h : d.InStep p q ears reporting handed s) {item : ItemRef} (hq : item.queue = q)
    (hgiven : s.given item = true) : (d.accept item).1.InStep p q ears reporting (handed ++ [item]) s := by
  rw [Dispatcher.accept, if_pos h.accepting]
  exact
    { visible := h.visible
      listens := h.listens
      accepting := h.accepting
      queued := by rw [h.queued, List.append_assoc]
      given := List.forall_mem_append.mpr ⟨h.given, List.forall_mem_singleton.mpr ⟨hq, hgiven⟩⟩
      staged := h.staged
      called := h.called
      reporting := h.reporting }

/-- An item that the dispatcher was handed is in its stage. -/
theorem exists_staged (h : d.InStep p q ears reporting handed s) {item : ItemRef} (hitem : item ∈ handed) :
    ∃ e, s.get? item = some e ∧ e.state = d.stage reporting item := by
  obtain ⟨hq, hgiven⟩ := h.given item hitem
  obtain ⟨e, he⟩ := exists_of_given hgiven
  exact ⟨e, he, h.staged item e hq he hgiven⟩

/-- An item that is assigned or running is building in its queue. -/
theorem isBuildingIn (h : d.InStep p q ears reporting handed s) {item : ItemRef} {e : Entrant}
    (he : s.get? item = some e) (hstate : e.state.isBuilding = true) : s.isBuildingIn item.queue item = true := by
  have hmem := ((h.visible.wellFormed.queues item.queue).building_iff he).mpr hstate
  simpa [Scheduler.isBuildingIn] using hmem

/-- The worker begins with the item that waits first: this is assigned, its start is reported, and then its work is
called. -/
theorem begin_eq (h : d.InStep p q ears reporting handed s) (hdistinct : handed.Nodup) {item : ItemRef}
    {rest : List ItemRef} (hworking : d.working = none) (hwaiting : d.waiting = item :: rest)
    (work : Scheduler → ItemRef → Option Fault) :
    ∃ e, s.get? item = some e ∧ item ∉ d.called ∧ s.isBuildingIn item.queue item = true ∧
      d.begin work s =
        ({ d with
            waiting := rest
            working := some (item, work (s.withQueue item.queue (·.start item.id)) item)
            called := d.called ++ [item] },
          s.withQueue item.queue (·.start item.id)) := by
  have hqueued := h.queued
  rw [hwaiting] at hqueued
  have hitem : item ∈ handed := hqueued ▸ List.mem_append_right _ List.mem_cons_self
  have hnew : item ∉ d.called := fun hcalled =>
    (List.disjoint_of_nodup_append (hqueued ▸ hdistinct)) hcalled List.mem_cons_self
  obtain ⟨e, he, hstate⟩ := h.exists_staged hitem
  rw [stage, if_neg hnew] at hstate
  have hbuilding := h.isBuildingIn he (by rw [hstate]; rfl)
  refine ⟨e, he, hnew, hbuilding, ?_⟩
  simp only [Dispatcher.begin, hworking, hwaiting, started, hbuilding, if_true]

/-- When the worker begins, the dispatcher stays in step, and nothing is assigned. -/
theorem begin (h : d.InStep p q ears reporting handed s) (hdistinct : handed.Nodup)
    (work : Scheduler → ItemRef → Option Fault) :
    (d.begin work s).1.InStep p q ears reporting handed (d.begin work s).2 ∧ Uneventful s (d.begin work s).2 := by
  cases hworking : d.working with
  | some w =>
      have hsame : d.begin work s = (d, s) := by simp only [Dispatcher.begin, hworking]
      rw [hsame]
      exact ⟨h, .of_queue fun _ => rfl⟩
  | none =>
      cases hwaiting : d.waiting with
      | nil =>
          have hsame : d.begin work s = (d, s) := by simp only [Dispatcher.begin, hworking, hwaiting]
          rw [hsame]
          exact ⟨h, .of_queue fun _ => rfl⟩
      | cons item rest =>
          obtain ⟨e, he, hnew, hbuilding, hbegin⟩ := h.begin_eq hdistinct hworking hwaiting work
          have hquiet := start_uneventful h.visible.wellFormed hbuilding
          have hstart : Changes Set.univ s _ := .single (.start (Set.mem_univ item.queue) hbuilding)
          have hidle : reporting = false := by
            cases reporting with
            | false => rfl
            | true => exact absurd hworking (h.reporting rfl)
          rw [hbegin]
          refine ⟨?_, hquiet⟩
          exact
            { visible := h.visible.changes hstart
              listens := fun j => by rw [hquiet.listeners, h.listens]
              accepting := h.accepting
              queued := by rw [h.queued, hwaiting, List.append_assoc]; rfl
              given := fun j hj => ⟨(h.given j hj).1, (hquiet.given j).trans (h.given j hj).2⟩
              staged := fun j e' hq he' hgiven => by
                rw [get?_start he] at he'
                split at he'
                case isTrue hj =>
                  cases he'
                  simp [stage, hj, hidle]
                case isFalse hj =>
                  rw [h.staged j e' hq he' ((hquiet.given j).symm.trans hgiven)]
                  simp [stage, hj, hidle, hworking, Ne.symm hj]
              called := fun j fault hj => by
                cases hj
                exact List.mem_append_right _ List.mem_cons_self
              reporting := nofun }

/-- The item at work is running unless the worker reports, and the report ends it before its queue is matched. -/
theorem report_eq (h : d.InStep p q ears false handed s) {item : ItemRef} {fault : Option Fault}
    (hworking : d.working = some (item, fault)) (judge : Judge) :
    ∃ e, s.get? item = some e ∧ e.state = .running ∧ s.isBuildingIn item.queue item = true ∧
      Dispatcher.report judge item s = ((s.ended item).maintain judge item.queue).returning fun _ => () := by
  have hcalled := h.called item fault hworking
  obtain ⟨e, he, hstate⟩ := h.exists_staged (h.mem_handed hcalled)
  rw [stage, if_pos hcalled, hworking] at hstate
  have hrunning : e.state = .running := by simpa using hstate
  have hbuilding := h.isBuildingIn he (by rw [hrunning]; rfl)
  exact ⟨e, he, hrunning, hbuilding, by rw [Dispatcher.report, completed, if_pos hbuilding]; rfl⟩

/-- When the end of its work is reported, the item is completed, and the dispatcher is in step as it reports. -/
theorem ended (h : d.InStep p q ears false handed s) {item : ItemRef} {fault : Option Fault}
    (hworking : d.working = some (item, fault)) : d.InStep p q ears true handed (s.ended item) := by
  obtain ⟨e, he, -, hbuilding, -⟩ := h.report_eq hworking .lenient
  have hquiet := ended_uneventful h.visible.wellFormed hbuilding
  have hend : Changes Set.univ s (s.ended item) :=
    .head (.complete (Set.mem_univ _) hbuilding) (.single (.note (.log _ _)))
  exact
    { visible := h.visible.changes hend
      listens := fun j => by rw [hquiet.listeners, h.listens]
      accepting := h.accepting
      queued := h.queued
      given := fun j hj => ⟨(h.given j hj).1, (hquiet.given j).trans (h.given j hj).2⟩
      staged := fun j e' hq he' hgiven => by
        have hget : (s.conclude item.queue item).get? j = some e' := he'
        rw [get?_conclude he] at hget
        split at hget
        case isTrue hj =>
          cases hget
          simp [stage, hj, h.called item fault hworking]
        case isFalse hj =>
          rw [h.staged j e' hq hget ((hquiet.given j).symm.trans hgiven)]
          simp [stage, hworking, Ne.symm hj]
      called := h.called
      reporting := fun _ => by rw [hworking]; nofun }

end InStep

end Dispatcher

end LabelScheduler
