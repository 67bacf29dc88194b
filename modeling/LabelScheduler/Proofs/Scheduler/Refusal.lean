import LabelScheduler.Proofs.Registry
import LabelScheduler.Proofs.Scenario.Replay
import LabelScheduler.Proofs.Scheduler.Announcement
import LabelScheduler.Proofs.Scheduler.Lifecycle

/-!
# Refused operations change nothing

An operation refuses what it is asked for if a label cannot be read, a name is taken or unknown, a node is held by an
item, or an item is not pending or not building in the queue. It does so before it touches anything but the registry
of atoms and the journal, and it tells nobody. Every other fault with which an operation ends was brought to it by a
party that was told news or was asked as a blocker.
-/

namespace LabelScheduler

open Scheduler

namespace Scheduler

variable {s t u : Scheduler} {judge : Judge} {q : Nat} {item : ItemRef}

/-- The nodes, the queues with their items, and the parties that hear of things are as they were, and nobody was
told anything; atoms may have been made. -/
structure Unchanged (s t : Scheduler) : Prop where
  nodes : t.pool.nodes = s.pool.nodes
  enrolled : t.pool.enrolled = s.pool.enrolled
  subscribers : t.pool.subscribers = s.pool.subscribers
  queues : t.queues = s.queues
  contacts : t.contacts = s.contacts
  atoms : s.pool.registry.Below t.pool.registry

namespace Unchanged

/-- Nothing happens. -/
protected theorem refl (s : Scheduler) : Unchanged s s := ⟨rfl, rfl, rfl, rfl, rfl, .refl _⟩

/-- Nothing happens after nothing happened. -/
protected theorem trans (h : Unchanged s t) (h' : Unchanged t u) : Unchanged s u where
  nodes := h'.nodes.trans h.nodes
  enrolled := h'.enrolled.trans h.enrolled
  subscribers := h'.subscribers.trans h.subscribers
  queues := h'.queues.trans h.queues
  contacts := h'.contacts.trans h.contacts
  atoms := h.atoms.trans h'.atoms

/-- Events may be noted. -/
theorem logAll (s : Scheduler) (es : List Event) : Unchanged s (s.logAll es) := by
  have halike := Alike.logAll s es
  have hcontacts : (s.logAll es).contacts = s.contacts := by
    unfold Scheduler.logAll
    induction es generalizing s with
    | nil => rfl
    | cons e es ih => exact ih (s.log e) (Alike.logAll _ _)
  refine ⟨?_, ?_, ?_, halike.queues, hcontacts, ?_⟩ <;> rw [halike.pool]
  exact .refl _

/-- Events may be noted, and a registry may be put in place that has grown. -/
theorem read (s : Scheduler) (es : List Event) {r : Registry} (hr : s.pool.registry.Below r) :
    Unchanged s ((s.logAll es).withPool fun p => { p with registry := r }) :=
  have hnoted := logAll s es
  ⟨hnoted.nodes, hnoted.enrolled, hnoted.subscribers, hnoted.queues, hnoted.contacts, hr⟩

/-- Reading the label of a submission makes atoms at the most. -/
theorem readLabel (s : Scheduler) (p : Part) : Unchanged s (s.readLabel p).1 := by
  rcases readLabel_cases s p with h | ⟨text, h⟩
  · rw [h]
    exact .refl s
  · rw [h]
    exact read s _ (Registry.below_parseLiteral _ (.text text))

end Unchanged

end Scheduler

/-- Why an operation is refused in this state, if it is. -/
def Request.refusal (s : Scheduler) : Request → Option Fault
  | .register name labels =>
    match (s.pool.registry.internLabels name labels).2 with
    | .error f => some (.label f)
    | .ok _ => if (s.pool.find? name).isSome then some (.duplicateNode name) else none
  | .remove name => if (s.pool.find? name).isSome then none else some (.unknownNode name)
  | .setState name state =>
    match s.pool.find? name with
    | none => some (.unknownNode name)
    | some n => if state = .idle then n.holds.map (.nodeBusy name) else none
  | .submit _ label task _ =>
    match (s.readLabel label).2 with
    | .error f => some f
    | .ok _ => if '#' ∈ task.toList then some (.taskName task) else none
  | .started q item | .completed q item => if s.isBuildingIn q item then none else some (s.notBuilding item)
  | _ => none

/-- A text with the mark names no task. -/
theorem Scheduler.taskNamed_eq_none {task : String} (h : '#' ∈ task.toList) (id : Nat) : taskNamed task id = none := by
  have hnonempty : task.isEmpty = false := by
    cases hempty : task.isEmpty with
    | false => rfl
    | true =>
        rw [String.isEmpty_iff.mp hempty] at h
        exact absurd h (by decide)
  have hmarked : isTaskName task = false := by simp [isTaskName, h]
  simp [taskNamed, hnonempty, hmarked]

/-- The fault is that of a party: of one that was told news in the course of the operation, or of one that was asked
as a blocker. -/
def Foreign (judge : Judge) (xs : List Exchange) (f : Fault) : Prop :=
  (∃ x ∈ xs, x.fault = some f) ∨ ∃ p s item, judge p s item = .failed f

namespace Dialogue

variable {α β : Type} {judge : Judge} {s : Scheduler} {d : Dialogue α}

/-- If there is a reason for refusing the operation, it ends at once with this fault and changes nothing; if there is
none, it fails only as a party does. -/
def Abides (judge : Judge) (s : Scheduler) (d : Dialogue α) : Option Fault → Prop
  | some f => ∃ t, d = .done t (.error f) ∧ s.Unchanged t
  | none => ∀ xs t f, d.Course xs t (.error f) → Foreign judge xs f

namespace Abides

/-- The result may be changed. -/
theorem map {refusal : Option Fault} (h : d.Abides judge s refusal) (g : α → β) :
    (d.map g).Abides judge s refusal := by
  cases refusal with
  | some f =>
      obtain ⟨t, rfl, hunchanged⟩ := h
      exact ⟨t, rfl, hunchanged⟩
  | none =>
      intro xs t f hcourse
      obtain ⟨first, hfirst, hresult⟩ := hcourse.of_map
      cases first with
      | ok a => cases hresult
      | error f' =>
          cases hresult
          exact h xs t f hfirst

/-- Another result may be given. -/
theorem returning (h : d.Abides judge s none) (g : Scheduler → β) : (d.returning g).Abides judge s none := by
  intro xs t f hcourse
  obtain ⟨first, hfirst, hresult⟩ := hcourse.of_returning
  cases first with
  | ok a => cases hresult
  | error f' =>
      cases hresult
      exact h xs t f hfirst

/-- An operation that succeeds at once does not fail. -/
theorem succeeds (judge : Judge) (s t : Scheduler) (a : α) : (Dialogue.done t (.ok a)).Abides judge s none := by
  intro xs u f hcourse
  cases hcourse

end Abides

end Dialogue

namespace Scheduler

variable {s : Scheduler} {q : Nat}

/-- If a blocker fails, it is an outside party. -/
theorem Answered.foreign {judge : Judge} {item : ItemRef} {bs : List Blocker} {f : Fault}
    (h : Answered judge s q item bs (.failed f)) (xs : List Exchange) : Foreign judge xs f := by
  obtain ⟨before, b, after, -, -, t, -, hverdict⟩ := h
  cases b with
  | party p => exact .inr ⟨p, t, item, hverdict⟩
  | _ => exact absurd hverdict (Blocker.verdict_ne_failed rfl judge q item f)

/-- Matching fails only as a listener or a blocker does. -/
theorem maintain_abides (hs : s.WellFormed) (judge : Judge) (q : Nat) :
    (s.maintain judge q).Abides judge s none := by
  intro xs t f hcourse
  have hresult := (maintain_course hcourse).result
  cases hfirst : firstFault xs with
  | some f' =>
      rw [hfirst] at hresult
      cases hresult
      obtain ⟨x, hx, hfault⟩ := List.exists_of_findSome?_eq_some hfirst
      exact .inl ⟨x, hx, hfault⟩
  | none =>
      rw [hfirst] at hresult
      cases hfault : (matchItems judge q s).fault with
      | none => rw [hfault] at hresult; cases hresult
      | some f' =>
          rw [hfault] at hresult
          cases hresult
          obtain ⟨e, -, hanswered⟩ := (matchItems_exhausted hs judge q).failed f hfault
          exact hanswered.foreign xs

/-- Making a node available fails only as one of those does who hear of it. -/
theorem notify_abides (hs : s.WellFormed) (judge : Judge) (node : Node) (subs : List Subscriber) :
    (s.notify judge node subs).Abides judge s none := by
  induction subs generalizing s with
  | nil => exact .succeeds judge s s ()
  | cons sub subs ih =>
      intro xs t f hcourse
      cases sub with
      | queue q =>
          rcases Dialogue.Course.of_andThen hcourse with
            ⟨f', hfirst, hresult⟩ | ⟨before, after, u, a, rfl, hfirst, hlast⟩
          · cases hresult
            exact maintain_abides hs judge q xs t f hfirst
          · have hsu := (maintain_course hfirst).effects hs
            refine (ih (hs.effects hsu) after t f hlast).imp_left fun ⟨x, hx, hfault⟩ => ?_
            exact ⟨x, List.mem_append_right _ hx, hfault⟩
      | party p =>
          cases hcourse with
          | @tell _ u _ _ _ f' xs _ hparty hrest =>
              cases f' with
              | some f' =>
                  cases hrest
                  exact .inl ⟨_, List.mem_cons_self, rfl⟩
              | none =>
                  have htold : Alike s (s.record (.available p ((s.pool.registered? node.serial).getD node).name
                    ((s.pool.registered? node.serial).getD node).state)) := ⟨rfl, rfl⟩
                  have hsu : s.Reaches u := .head (.note htold) hparty
                  refine (ih (hs.effects hsu) xs t f hrest).imp_left fun ⟨x, hx, hfault⟩ => ?_
                  exact ⟨x, List.mem_cons_of_mem _ hx, hfault⟩

/-- Registering a node is refused for its labels or for its name. -/
theorem register_abides (hs : s.WellFormed) (judge : Judge) (name : String) (labels : NodeLabels) :
    (s.register judge name labels).Abides judge s ((Request.register name labels).refusal s) := by
  have hread := Unchanged.read s (s.pool.registry.newAtoms (s.pool.registry.internLabels name labels).1)
    (Registry.below_internLabels s.pool.registry name labels)
  have hmilds := withRegistry_milds s (s.pool.registry.internLabels name labels).1
  simp only [register, Request.refusal]
  generalize s.pool.registry.internLabels name labels = given at hread hmilds ⊢
  obtain ⟨r, f | atoms⟩ := given
  · exact ⟨_, rfl, hread⟩
  · have hfind : (s.withRegistry r).pool.find? name = s.pool.find? name := by
      rw [Pool.find?, Pool.find?]
      exact congrArg _ hread.nodes
    simp only [hfind]
    cases hname : s.pool.find? name with
    | some n => exact ⟨_, rfl, hread⟩
    | none =>
        have hjoin : s.Reaches (((s.withRegistry r).withPool (·.add name atoms)).log (.nodeRegistered name
            (Node.fresh name atoms (s.withRegistry r).pool.enrolled).labelsText)) :=
          hmilds.effects.trans (.head (.join atoms (hfind.trans hname)) (.single (.note (.log _ _))))
        exact (notify_abides (hs.effects hjoin) judge _ _).returning _

/-- Removing a node is refused for its name. -/
theorem remove_abides (s : Scheduler) (judge : Judge) (name : String) :
    (Dialogue.alone (s.remove name)).Abides judge s ((Request.remove name).refusal s) := by
  simp only [remove, Request.refusal]
  cases s.pool.find? name with
  | none => exact ⟨s, rfl, .refl s⟩
  | some n => exact .succeeds judge s _ n

/-- Taking or releasing a node is refused for its name, and releasing it if it holds an item. -/
theorem setState_abides (hs : s.WellFormed) (judge : Judge) (name : String) (state : NodeState) :
    (s.setState judge name state).Abides judge s ((Request.setState name state).refusal s) := by
  simp only [setState, Request.refusal]
  cases hfind : s.pool.find? name with
  | none => exact ⟨s, rfl, .refl s⟩
  | some n =>
      cases state with
      | busy => exact .succeeds judge s _ ()
      | idle =>
          cases hholds : n.holds with
          | some i =>
              simp only [hholds]
              exact ⟨s, rfl, .refl s⟩
          | none =>
              simp only [hholds, if_true]
              have hturn : s.Reaches ((s.withPool (·.update name fun n => { n with state := .idle })).log
                  (.nodeStateChanged name n.state.name NodeState.idle.name)) :=
                .head (.turn .idle hfind fun _ => hholds) (.single (.note (.log _ _)))
              exact notify_abides (hs.effects hturn) judge _ _

/-- Submitting an item is refused for its label or for its task. -/
theorem submit_abides (hs : s.WellFormed) (judge : Judge) (q : Nat) (label : Part) (task : String)
    (blockers : List Blocker) :
    (s.submit judge q label task blockers).Abides judge s ((Request.submit q label task blockers).refusal s) := by
  have hread := Unchanged.readLabel s label
  have hmilds := readLabel_milds s label
  simp only [submit, Request.refusal]
  generalize s.readLabel label = given at hread hmilds ⊢
  obtain ⟨s₁, f | e⟩ := given
  · exact ⟨s₁, rfl, hread⟩
  · by_cases hmark : '#' ∈ task.toList
    · simp only [hmark, taskNamed_eq_none hmark, if_true]
      exact ⟨s₁, rfl, hread⟩
    · obtain ⟨name, hname⟩ := taskNamed_isSome hmark (s₁.queue q).nextId
      simp only [hmark, hname, if_false]
      have henter : s.Reaches ((s₁.withQueue q (·.add ⟨(s₁.queue q).nextId, name, e, blockers⟩)).log
          (.itemSubmitted (s₁.queue q).nextId name.text
            (Item.labelName ⟨(s₁.queue q).nextId, name, e, blockers⟩))) :=
        hmilds.effects.trans (.head (.enter rfl) (.single (.note (.log _ _))))
      exact (maintain_abides (hs.effects henter) judge q).returning _

/-- Reporting that work has begun is refused for an item that is not building in the queue. -/
theorem started_abides (s : Scheduler) (judge : Judge) (q : Nat) (item : ItemRef) :
    (Dialogue.alone (s.started q item)).Abides judge s ((Request.started q item).refusal s) := by
  simp only [started, Request.refusal]
  split
  case isTrue => exact .succeeds judge s _ ()
  case isFalse => exact ⟨s, rfl, .refl s⟩

/-- Reporting that work has ended is refused for an item that is not building in the queue. -/
theorem completed_abides (hs : s.WellFormed) (judge : Judge) (q : Nat) (item : ItemRef) :
    (s.completed judge q item).Abides judge s ((Request.completed q item).refusal s) := by
  simp only [completed, Request.refusal]
  split
  case isTrue hbuilding =>
    have hcomplete : s.Reaches ((s.conclude q item).log (.itemCompleted item.id ((s.get? item).bind Entrant.node))) :=
      .head (.complete hbuilding) (.single (.note (.log _ _)))
    exact (maintain_abides (hs.effects hcomplete) judge q).returning _
  case isFalse => exact ⟨s, rfl, .refl s⟩

/-- Cancelling an item is not refused. -/
theorem cancel_abides (hs : s.WellFormed) (judge : Judge) (q : Nat) (item : ItemRef) :
    (s.cancel judge q item).Abides judge s none := by
  rw [cancel]
  split
  case isTrue hpending =>
    have hwithdraw : Changes Set.univ s _ := cancelled_changes hpending (.itemCancelled item.id true)
    exact (maintain_abides (hs.effects (hwithdraw.effects hs)) judge q).returning _
  case isFalse => exact .succeeds judge s _ false

/-- Cancelling an item that is not pending in the queue changes nothing, and no other operation gives this answer. -/
theorem unchanged_of_flag_false {judge : Judge} {r : Request} {xs : List Exchange} {t : Scheduler}
    (h : (r.perform judge s).Course xs t (.ok (.flag false))) : xs = [] ∧ s.Unchanged t := by
  cases r with
  | cancel q item =>
      obtain ⟨first, hfirst, hresult⟩ := Dialogue.Course.of_map h
      cases first with
      | error f => cases hresult
      | ok b =>
          cases hresult
          rw [cancel] at hfirst
          split at hfirst
          case isTrue =>
            obtain ⟨first, -, hresult⟩ := hfirst.of_returning
            cases first <;> cases hresult
          case isFalse =>
            cases hfirst
            exact ⟨rfl, .logAll s [.itemCancelled item.id false]⟩
  | register | remove | setState | submit | started | completed | maintain =>
      obtain ⟨first, -, hresult⟩ := Dialogue.Course.of_map h
      cases first <;> cases hresult
  | openQueue | addListener | addSubscriber | watch => cases h

end Scheduler

/-- Every operation is refused for these reasons alone. -/
theorem Request.perform_abides {s : Scheduler} (hs : s.WellFormed) (judge : Judge) (r : Request) :
    (r.perform judge s).Abides judge s (r.refusal s) := by
  cases r with
  | register name labels => exact (register_abides hs judge name labels).map _
  | remove name => exact (remove_abides s judge name).map _
  | setState name state => exact (setState_abides hs judge name state).map _
  | submit q label task blockers => exact (submit_abides hs judge q label task blockers).map _
  | cancel q item => exact (cancel_abides hs judge q item).map _
  | started q item => exact (started_abides s judge q item).map _
  | completed q item => exact (completed_abides hs judge q item).map _
  | maintain q => exact (maintain_abides hs judge q).map _
  | openQueue listeners => exact .succeeds judge s _ _
  | addListener q p => exact .succeeds judge s _ _
  | addSubscriber p => exact .succeeds judge s _ _
  | watch p item => exact .succeeds judge s _ _

/-- In every state of a run, with any number of queues on the pool, an operation that is refused ends at once: nodes,
queues and items are as they were and nobody is told anything, only atoms may have been made. Conversely an operation
that ends with a fault that is not that of a party was refused, and one that says that it has cancelled nothing has
changed nothing. Reports on an item of another queue are refused, also if the queue has an item of the same number,
and such an item is not cancelled. -/
theorem Config.run_refused (moves : List Move) (judge : Judge) (r : Request) :
    let s := (run moves).state
    (∀ f, r.refusal s = some f → ∃ t, r.perform judge s = .done t (.error f) ∧ s.Unchanged t) ∧
    (∀ xs t f, (r.perform judge s).Course xs t (.error f) → ¬ Foreign judge xs f →
      r.refusal s = some f ∧ xs = [] ∧ s.Unchanged t) ∧
    (∀ xs t, (r.perform judge s).Course xs t (.ok (.flag false)) → xs = [] ∧ s.Unchanged t) ∧
    ∀ q item, item.queue ≠ q →
      (Request.started q item).refusal s = some (s.notBuilding item) ∧
      (Request.completed q item).refusal s = some (s.notBuilding item) ∧
      ∃ t, (Request.cancel q item).perform judge s = .done t (.ok (.flag false)) := by
  intro s
  have habides := r.perform_abides (run_wellFormed moves) judge
  refine ⟨fun f hf => ?_, fun xs t f hcourse hown => ?_, fun xs t => unchanged_of_flag_false, fun q item hq => ?_⟩
  · rwa [hf] at habides
  · cases hrefusal : r.refusal s with
    | none =>
        rw [hrefusal] at habides
        exact absurd (habides xs t f hcourse) hown
    | some f' =>
        rw [hrefusal] at habides
        obtain ⟨u, hdone, hunchanged⟩ := habides
        rw [hdone] at hcourse
        cases hcourse
        exact ⟨rfl, rfl, hunchanged⟩
  · have hforeign : s.isBuildingIn q item = false := by simp [isBuildingIn, hq]
    have hpending : s.isPendingIn q item = false := by simp [isPendingIn, hq]
    refine ⟨by simp [Request.refusal, hforeign], by simp [Request.refusal, hforeign],
      s.log (.itemCancelled item.id false), ?_⟩
    rw [Request.perform, cancel_of_not_pending hpending]
    rfl

/-- Nobody fails where no party is told anything and the blockers' parties let everything go. -/
theorem not_foreign_lenient (f : Fault) : ¬ Foreign .lenient [] f := by
  rintro (⟨x, hx, -⟩ | ⟨p, s, item, hfailed⟩)
  · exact absurd hx List.not_mem_nil
  · cases hfailed

/-- Two queues have an item of the same number, of which one is building. That it has ended is refused by the other
queue, which does not cancel it either. A label that ends too early is refused after an atom was made. -/
theorem Config.run_refused_other_queue :
    let moves : List Move :=
      [.ask .lenient (.openQueue [0]), .ask .lenient (.openQueue [1]), .ask .lenient (.register "a" (.parts [])),
        .ask .lenient (.submit 0 (.plain .none) "t" []), .answer none,
        .ask .lenient (.submit 1 (.plain .none) "u" [])]
    let s := (run moves).state
    (s.queue 0).building = [1] ∧ (s.queue 1).pending = [1] ∧
      (∃ t, (Request.completed 1 ⟨0, 1⟩).perform .lenient s = .done t (.error (.unknownItem "#1:t")) ∧
        s.Unchanged t) ∧
      (∃ t, (Request.cancel 1 ⟨0, 1⟩).perform .lenient s = .done t (.ok (.flag false)) ∧ s.Unchanged t) ∧
      ∃ t f, (Request.submit 1 (.plain (.text "x &&")) "v" []).perform .lenient s = .done t (.error f) ∧
        s.Unchanged t ∧ s.pool.registry.names = ["a"] ∧ t.pool.registry.names = ["a", "x"] := by
  intro moves s
  refine ⟨by decide, by decide, ?_, ?_, ?_⟩
  · obtain ⟨hrefused, hown, -⟩ := run_refused moves .lenient (.completed 1 ⟨0, 1⟩)
    obtain ⟨t, hdone, -⟩ := hrefused (.unknownItem "#1:t") (by decide)
    have hcourse := Dialogue.Course.done t (.error (.unknownItem "#1:t") : Except Fault Answer)
    rw [← hdone] at hcourse
    obtain ⟨-, -, hunchanged⟩ := hown [] t _ hcourse (not_foreign_lenient _)
    exact ⟨t, hdone, hunchanged⟩
  · obtain ⟨-, -, hflag, hother⟩ := run_refused moves .lenient (.cancel 1 ⟨0, 1⟩)
    obtain ⟨-, -, t, hdone⟩ := hother 1 ⟨0, 1⟩ (by decide)
    have hcourse := Dialogue.Course.done t (.ok (.flag false) : Except Fault Answer)
    rw [← hdone] at hcourse
    exact ⟨t, hdone, (hflag [] t hcourse).2⟩
  · let r : Request := .submit 1 (.plain (.text "x &&")) "v" []
    obtain ⟨hrefused, -⟩ := run_refused moves .lenient r
    obtain ⟨f, hf⟩ : ∃ f, r.refusal s = some f := Option.isSome_iff_exists.mp (by decide +kernel)
    obtain ⟨t, hdone, hunchanged⟩ := hrefused f hf
    have hnames : (r.perform .lenient s).playSilent.1.pool.registry.names = ["a", "x"] := by decide +kernel
    rw [hdone] at hnames
    exact ⟨t, f, hdone, hunchanged, by decide, hnames⟩

end LabelScheduler
