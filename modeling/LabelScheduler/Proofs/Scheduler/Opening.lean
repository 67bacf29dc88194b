import LabelScheduler.Proofs.Scheduler.Refusal
import Mathlib.Data.List.Induction

/-!
# How operations begin

An operation that is not refused does what is peculiar to it in one step, at its beginning and before anybody else has
a say. Then those in its audience have their turns: the queue that it is asked of, or all who hear of available nodes.
All that happens in these turns is that queues match, the promises of assignments are kept and parties are told. So what
such rounds preserve, an operation preserves if its opening does, and in a run it is enough to look at the openings of
the operations that are asked for.
-/

namespace LabelScheduler

open Scheduler

/-- Those who have their turns when an operation has opened: the queue that it is asked of, or all who hear of available
nodes. -/
def Request.audience (s : Scheduler) : Request → List Subscriber
  | .register _ _ => s.pool.subscribers
  | .setState _ state => if state = .idle then s.pool.subscribers else []
  | .submit q _ _ _ | .completed q _ | .maintain q => [.queue q]
  | .cancel q item => if s.isPendingIn q item then [.queue q] else []
  | _ => []

namespace Scheduler

variable {judges : Set Judge} {s t u : Scheduler} {r : Request} {judge : Judge} {q : Nat} {item : ItemRef} {m : Node}

/-- A note, or a round of matching in which one of these judges is heard, together with the keeping of its promises. -/
inductive Round (judges : Set Judge) (s : Scheduler) : Scheduler → Prop where
  | note {t : Scheduler} (h : Alike s t) : Round judges s t
  | matched {judge : Judge} (hjudge : judge ∈ judges) (q : Nat) : Round judges s (s.published judge q)

/-- Any number of rounds. -/
abbrev Rounds (judges : Set Judge) : Scheduler → Scheduler → Prop := Relation.ReflTransGen (Round judges)

/-- Rounds are effects. -/
theorem Rounds.effects (hs : s.WellFormed) (h : Rounds judges s t) : Effects judges s t := by
  induction h with
  | refl => exact .refl
  | @tail t u _ hround ih =>
      cases hround with
      | note halike => exact ih.tail (.note halike)
      | matched hjudge q => exact ih.trans (published_effects (hs.effects ih) hjudge q)

/-- What is preserved by notes and assignments, and as promises are kept, is preserved by rounds. -/
theorem Rounds.preserve {P : Scheduler → Prop} (hnote : ∀ {s t}, Alike s t → P s → P t)
    (hassign : ∀ {s judge q n e}, s.WellFormed → Eligible judge s q n e → P s → P (s.assign q n e))
    (hkeep : ∀ {s item e a}, s.get? item = some e → e.assignment = some a → P s → P (s.settle item (.kept a)))
    (hs : s.WellFormed) (h : Rounds judges s t) (hP : P s) : P t := by
  induction h with
  | refl => exact hP
  | @tail t u hbefore hround ih =>
      have ht := hs.effects (Rounds.effects hs hbefore)
      cases hround with
      | note halike => exact hnote halike ih
      | @matched judge _ q =>
          have hmatched : (matchItems judge q t).state.WellFormed ∧ P (matchItems judge q t).state := by
            refine (matchItems_assigns ht judge q).preserve (P := fun v => v.WellFormed ∧ P v) ?_ ?_ ⟨ht, ih⟩
            · exact fun halike hv => ⟨hv.1.alike halike, hnote halike hv.2⟩
            · exact fun hfit hv => ⟨hv.1.assign _ hfit.pending, hassign hv.1 hfit hv.2⟩
          exact keepPromises_preserve (hnote (.log _ _)) hkeep _ hmatched.2

/-- What an operation does first. -/
inductive Opening (s : Scheduler) : Request → Scheduler → Prop where
  | refused {r : Request} {f : Fault} {t : Scheduler} (hr : r.refusal s = some f) (h : s.Unchanged t) : Opening s r t
  | join {name : String} {labels : NodeLabels} {registry : Registry} {atoms : List String}
      (hatoms : s.pool.registry.internLabels name labels = (registry, .ok atoms))
      (hnew : (s.withRegistry registry).pool.find? name = none) :
      Opening s (.register name labels) ((s.withRegistry registry).withPool (·.add name atoms))
  | leave (name : String) : Opening s (.remove name) (s.withPool (·.drop name))
  | turn {name : String} {state : NodeState} {n : Node} (h : s.pool.find? name = some n)
      (hfree : state = .idle → n.holds = none) :
      Opening s (.setState name state) (s.withPool (·.update name fun n => { n with state := state }))
  | enter {q : Nat} {label : Part} {task : String} {blockers : List Blocker} {t : Scheduler} {e : Option Label}
      {name : TaskName} (hlabel : s.readLabel label = (t, .ok e))
      (hname : taskNamed task (t.queue q).nextId = some name) :
      Opening s (.submit q label task blockers) (t.withQueue q (·.add ⟨(t.queue q).nextId, name, e, blockers⟩))
  | withdraw {q : Nat} {item : ItemRef} (h : s.isPendingIn q item = true) :
      Opening s (.cancel q item)
        (((s.withQueue q (·.withdraw item.id)).log (.itemCancelled item.id true)).settle item .withdrawn)
  | vain {q : Nat} {item : ItemRef} (h : s.isPendingIn q item = false) : Opening s (.cancel q item) s
  | start {q : Nat} {item : ItemRef} (h : s.isBuildingIn q item = true) :
      Opening s (.started q item) (s.withQueue q (·.start item.id))
  | complete {q : Nat} {item : ItemRef} (h : s.isBuildingIn q item = true) :
      Opening s (.completed q item) (s.conclude q item)
  | maintain (q : Nat) : Opening s (.maintain q) s
  | openQueue (listeners : List Party) : Opening s (.openQueue listeners) (s.openQueue listeners)
  | listen (q : Nat) (p : Party) : Opening s (.addListener q p) (s.addListener q p)
  | subscribe (p : Party) : Opening s (.addSubscriber p) (s.addSubscriber p)
  | watch (p : Party) (item : ItemRef) : Opening s (.watch p item) (s.watch p item)

/-- Where nothing but atoms and notes is new, no judge was heard. -/
theorem Unchanged.effects (h : s.Unchanged t) : Effects judges s t := by
  have halike : Alike (s.withPool fun p => { p with registry := t.pool.registry }) t := by
    refine ⟨?_, h.queues⟩
    obtain ⟨⟨registry, nodes, subscribers, enrolled⟩, _, _, _⟩ := t
    obtain rfl : nodes = s.pool.nodes := h.nodes
    obtain rfl : subscribers = s.pool.subscribers := h.subscribers
    obtain rfl : enrolled = s.pool.enrolled := h.enrolled
    rfl
  exact .head (.read t.pool.registry) (.single (.note halike))

/-- Making the atoms of a node changes nothing else. -/
theorem Unchanged.internLabels {name : String} {labels : NodeLabels} {registry : Registry}
    {atoms : Except RecipeFault (List String)} (h : s.pool.registry.internLabels name labels = (registry, atoms)) :
    s.Unchanged (s.withRegistry registry) := by
  have hbelow := Registry.below_internLabels s.pool.registry name labels
  rw [h] at hbelow
  exact .read s _ hbelow

/-- Reading the label of a submission makes atoms at the most. -/
theorem Unchanged.of_readLabel {label : Part} {result : Except Fault (Option Label)}
    (h : s.readLabel label = (t, result)) : s.Unchanged t := by
  have hread := Unchanged.readLabel s label
  rwa [h] at hread

/-- No judge is heard in the opening of an operation. -/
theorem Opening.effects (h : s.Opening r t) : Effects ∅ s t := by
  cases h with
  | refused hr h => exact h.effects
  | join hatoms hnew => exact (Unchanged.internLabels hatoms).effects.tail (.join _ hnew)
  | leave name => exact .single (.leave name)
  | turn h hfree => exact .single (.turn _ h hfree)
  | enter hlabel hname => exact (Unchanged.of_readLabel hlabel).effects.tail (.enter rfl)
  | @withdraw q item h =>
      obtain ⟨e, he, hstate⟩ := get?_of_withdraw h
      let event := Event.itemCancelled item.id true
      have hlogged : ((s.withQueue q (·.withdraw item.id)).log event).get? item = some e := he
      exact .head (.withdraw h) (.head (.note (.log _ event)) (.single (.renounce hlogged hstate)))
  | vain h => exact .refl
  | start h => exact .single (.start h)
  | complete h => exact .single (.complete h)
  | maintain q => exact .refl
  | openQueue listeners => exact .single (.openQueue listeners)
  | listen q p => exact .single (.listen q p)
  | subscribe p => exact .single (.subscribe p)
  | watch p item => exact .single (.watch p item)

/-- Where a node of a pool comes from when an operation has begun: it was there, it has just joined, its state was set,
or it was freed as an item ended. -/
inductive NodeOrigin (s : Scheduler) (r : Request) (t : Scheduler) : Node → Prop where
  | kept {m : Node} (h : m ∈ s.pool.nodes) : NodeOrigin s r t m
  | joined {name : String} {labels : NodeLabels} {registry : Registry} {atoms : List String}
      (hr : r = .register name labels)
      (hatoms : s.pool.registry.internLabels name labels = (registry, .ok atoms))
      (hregistry : t.pool.registry = registry) : NodeOrigin s r t (.fresh name atoms s.pool.enrolled)
  | turned {m : Node} {state : NodeState} (h : m ∈ s.pool.nodes) (hr : r = .setState m.name state)
      (hfree : state = .idle → m.holds = none) : NodeOrigin s r t { m with state := state }
  | freed {m : Node} {q : Nat} {item : ItemRef} (h : m ∈ s.pool.nodes) (hr : r = .completed q item)
      (hbuilding : s.isBuildingIn q item = true) (hnode : (s.get? item).bind Entrant.node = some m.name)
      (hholds : m.holds = some item.id) : NodeOrigin s r t { m with state := .idle, holds := none }

/-- Every node has one of these origins. -/
theorem Opening.nodeOrigin (hs : s.WellFormed) (h : s.Opening r t) (hm : m ∈ t.pool.nodes) : NodeOrigin s r t m := by
  have hsame (hnodes : t.pool.nodes = s.pool.nodes) : NodeOrigin s r t m := .kept (hnodes ▸ hm)
  cases h with
  | refused hr hread => exact hsame hread.nodes
  | @join name labels registry atoms hatoms hnew =>
      have hread := Unchanged.internLabels hatoms
      rcases List.mem_append.mp hm with hold | hjoined
      · exact .kept (hread.nodes ▸ hold)
      · rw [List.mem_singleton.mp hjoined, hread.enrolled]
        exact .joined rfl hatoms rfl
  | leave name => exact .kept (List.mem_filter.mp hm).1
  | turn hfind hfree =>
      obtain ⟨m₀, hm₀, rfl⟩ := Pool.mem_update.mp hm
      split
      case isTrue hname =>
        obtain ⟨hn, rfl⟩ := Pool.mem_of_find? hfind
        obtain rfl := hs.pool.eq_of_name hm₀ hn hname
        exact .turned hm₀ rfl hfree
      case isFalse => exact .kept hm₀
  | enter hlabel hname => exact hsame (Unchanged.of_readLabel hlabel).nodes
  | withdraw hpending => exact hsame (congrArg Pool.nodes (pool_settle ..))
  | vain hnot => exact hsame rfl
  | start hbuilding => exact hsame rfl
  | @complete q item hbuilding =>
      have hpool := (conclude_alike s q item).pool
      cases hnode : (s.get? item).bind Entrant.node with
      | none =>
          rw [hnode] at hpool
          exact hsame (congrArg Pool.nodes hpool)
      | some name =>
          rw [hnode] at hpool
          rw [hpool] at hm
          have hfreed : m ∈ (s.pool.release name item.id).nodes := hm
          rw [hs.pool.nodes_release] at hfreed
          obtain ⟨m₀, hm₀, rfl⟩ := List.mem_map.mp hfreed
          split
          case isTrue hthis =>
            obtain ⟨rfl, hholds⟩ := hthis
            exact .freed hm₀ rfl hbuilding hnode hholds
          case isFalse => exact .kept hm₀
  | maintain q => exact hsame rfl
  | openQueue listeners => exact hsame rfl
  | listen q p => exact hsame rfl
  | subscribe p => exact hsame rfl
  | watch p item => exact hsame (congrArg Pool.nodes (pool_watch ..))

/-- An operation begins without taking back any atom. -/
theorem Opening.below (h : s.Opening r t) : s.pool.registry.Below t.pool.registry := by
  have hsame (hregistry : t.pool.registry = s.pool.registry) : s.pool.registry.Below t.pool.registry :=
    hregistry ▸ .refl _
  cases h with
  | refused hr hread => exact hread.atoms
  | join hatoms hnew => exact (Unchanged.internLabels hatoms).atoms
  | leave name => exact hsame rfl
  | turn hfind hfree => exact hsame rfl
  | enter hlabel hname => exact (Unchanged.of_readLabel hlabel).atoms
  | withdraw hpending => exact hsame (congrArg Pool.registry (pool_settle ..))
  | vain hnot => exact hsame rfl
  | start hbuilding => exact hsame rfl
  | @complete q item hbuilding =>
      rw [(conclude_alike s q item).pool]
      cases (s.get? item).bind Entrant.node with
      | none => exact .refl _
      | some name => exact (Pool.release_registry s.pool name item.id).symm ▸ .refl _
  | maintain q => exact hsame rfl
  | openQueue listeners => exact hsame rfl
  | listen q p => exact hsame rfl
  | subscribe p => exact hsame rfl
  | watch p item => exact hsame (congrArg Pool.registry (pool_watch ..))

end Scheduler

namespace Dialogue

variable {α β : Type} {judges : Set Judge} {s t : Scheduler} {d : Dialogue α}

/-- A dialogue that is begun in a state goes on in rounds alone, whatever parties do while they have their say. -/
def RoundsOff (judges : Set Judge) : Dialogue α → Scheduler → Prop
  | .done t _, s => Rounds judges s t
  | .tell t _ resume, s => Rounds judges s t ∧ ∀ u f, (resume u f).RoundsOff judges u

namespace RoundsOff

/-- Rounds may come before a dialogue. -/
theorem head (hst : Rounds judges s t) (h : d.RoundsOff judges t) : d.RoundsOff judges s := by
  cases d with
  | done u result => exact hst.trans h
  | tell u news resume => exact ⟨hst.trans h.1, h.2⟩

/-- A dialogue that goes on after success goes on in rounds if both of its parts do. -/
theorem andThen {next : Scheduler → α → Dialogue β} (h : d.RoundsOff judges s)
    (hnext : ∀ t a, (next t a).RoundsOff judges t) : (d.andThen next).RoundsOff judges s := by
  induction d generalizing s with
  | done t result =>
      cases result with
      | ok a => exact (hnext t a).head h
      | error f => exact h
  | tell t news resume ih => exact ⟨h.1, fun u f => ih u f (h.2 u f)⟩

/-- Another result may be given. -/
theorem returning (h : d.RoundsOff judges s) (g : Scheduler → β) : (d.returning g).RoundsOff judges s :=
  h.andThen fun _ _ => .refl

end RoundsOff

/-- Of three operations that follow each other, the last two may be taken together. -/
theorem andThen_assoc {γ : Type} (d : Dialogue α) (f : Scheduler → α → Dialogue β) (g : Scheduler → β → Dialogue γ) :
    (d.andThen f).andThen g = d.andThen fun s a => (f s a).andThen g := by
  induction d with
  | done s result => cases result <;> rfl
  | tell s news resume ih => exact congrArg (Dialogue.tell s news) (funext fun u => funext fun f => ih u f)

/-- Nothing is added by an operation that gives the same result. -/
theorem andThen_done (d : Dialogue α) : (d.andThen fun s a => .done s (.ok a)) = d := by
  induction d with
  | done s result => cases result <;> rfl
  | tell s news resume ih => exact congrArg (Dialogue.tell s news) (funext fun u => funext fun f => ih u f)

/-- A result that is changed at once is given as changed. -/
theorem map_returning (d : Dialogue α) (answer : Scheduler → β) {γ : Type} (g : β → γ) :
    (d.returning answer).map g = d.returning fun s => g (answer s) :=
  andThen_assoc d _ _

end Dialogue

namespace Scheduler

variable {judges : Set Judge} {s t u : Scheduler} {judge : Judge} {q : Nat}

/-- Telling listeners of assignments. -/
theorem tellListeners_roundsOff (q : Nat) (pairs : List (Nat × Party)) (first : Option Fault) (s : Scheduler) :
    (tellListeners q pairs first s).RoundsOff judges s := by
  induction pairs generalizing first s with
  | nil => cases first <;> exact .refl
  | cons pair pairs ih =>
      refine ⟨.single (.note (recordAssigned_alike s pair.2 ⟨q, pair.1⟩)), fun u f => ?_⟩
      cases f with
      | none => exact ih first u
      | some f => exact (ih _ _).head (.single (.note (logFailure_alike u ⟨q, pair.1⟩ f)))

/-- Matching, and telling the listeners. -/
theorem maintain_roundsOff (hjudge : judge ∈ judges) (q : Nat) (s : Scheduler) :
    (s.maintain judge q).RoundsOff judges s := by
  refine .head (.single (.matched hjudge q)) ((tellListeners_roundsOff q _ none _).andThen fun t _ => ?_)
  cases (matchItems judge q s).fault <;> exact .refl

/-- Making a node available. -/
theorem notify_roundsOff (hjudge : judge ∈ judges) (node : Node) (subs : List Subscriber) (s : Scheduler) :
    (s.notify judge node subs).RoundsOff judges s := by
  induction subs generalizing s with
  | nil => exact .refl
  | cons sub subs ih =>
      cases sub with
      | queue q => exact (maintain_roundsOff hjudge q s).andThen fun t _ => ih t
      | party p =>
          refine ⟨.single (.note ⟨rfl, rfl⟩), fun u f => ?_⟩
          cases f with
          | none => exact ih u
          | some f => exact .refl

/-- How an operation goes that is begun in a state: it is refused at once, or it opens, then those in its audience have
their turns, and if all of these succeed it gives its answer. -/
inductive Opens {α : Type} (judge : Judge) (s : Scheduler) (r : Request) : Dialogue α → Prop where
  | refused {t : Scheduler} {f : Fault} (hr : r.refusal s = some f) (h : s.Unchanged t) :
      Opens judge s r (.done t (.error f))
  | opened {t u : Scheduler} (node : Node) (answer : Scheduler → α) (hr : r.refusal s = none) (h : s.Opening r t)
      (hnoted : Alike t u) : Opens judge s r ((u.notify judge node (r.audience s)).returning answer)

namespace Opens

variable {α β : Type} {r : Request} {d : Dialogue α}

/-- The result may be changed. -/
theorem map (h : Opens judge s r d) (g : α → β) : Opens judge s r (d.map g) := by
  cases h with
  | refused hr h => exact .refused hr h
  | opened node answer hr h hnoted =>
      rw [Dialogue.map_returning]
      exact .opened node _ hr h hnoted

/-- An operation without an audience is over when it has opened. -/
theorem alone (hr : r.refusal s = none) (haudience : r.audience s = []) (h : s.Opening r t) (hnoted : Alike t u)
    (a : α) : Opens judge s r (.done u (.ok a)) := by
  have hopened : Opens judge s r ((u.notify judge (.fresh "" [] 0) (r.audience s)).returning fun _ => a) :=
    .opened _ _ hr h hnoted
  rwa [haudience] at hopened

/-- If its queue alone has a turn, then the queue is matched when the operation has opened. -/
theorem matching (hr : r.refusal s = none) (haudience : r.audience s = [.queue q]) (h : s.Opening r t)
    (hnoted : Alike t u) (answer : Scheduler → α) : Opens judge s r ((u.maintain judge q).returning answer) := by
  have hopened : Opens judge s r ((u.notify judge (.fresh "" [] 0) (r.audience s)).returning answer) :=
    .opened _ _ hr h hnoted
  rw [haudience, notify, Dialogue.returning, Dialogue.andThen_assoc] at hopened
  exact hopened

/-- An operation that is refused ends at once with the fault for which it is. -/
theorem of_refusal {f : Fault} (h : Opens judge s r d) (hr : r.refusal s = some f) : ∃ t, d = .done t (.error f) := by
  cases h with
  | refused hrefused =>
      obtain rfl := Option.some.inj (hrefused.symm.trans hr)
      exact ⟨_, rfl⟩
  | opened node answer hnone =>
      rw [hr] at hnone
      cases hnone

/-- The operation goes on in rounds when it has opened. -/
theorem roundsOff (h : Opens judge s r d) (hjudge : judge ∈ judges) : ∃ t, s.Opening r t ∧ d.RoundsOff judges t := by
  cases h with
  | refused hr h => exact ⟨_, .refused hr h, .refl⟩
  | opened node answer hr h hnoted =>
      exact ⟨_, h, .head (.single (.note hnoted)) ((notify_roundsOff hjudge node _ _).returning answer)⟩

end Opens

/-- A name is free in a registry that has grown if it was free before. -/
theorem find?_withRegistry {name : String} {labels : NodeLabels} {registry : Registry}
    {atoms : Except RecipeFault (List String)} (h : s.pool.registry.internLabels name labels = (registry, atoms)) :
    (s.withRegistry registry).pool.find? name = s.pool.find? name := by
  rw [Pool.find?, Pool.find?, (Unchanged.internLabels h).nodes]

/-- Registering a node. -/
theorem register_opens (judge : Judge) (name : String) (labels : NodeLabels) (s : Scheduler) :
    Opens judge s (.register name labels) (s.register judge name labels) := by
  unfold register
  split
  case h_1 r f hatoms => exact .refused (by simp [Request.refusal, hatoms]) (Unchanged.internLabels hatoms)
  case h_2 r atoms hatoms =>
    simp only
    split
    case h_1 n hname =>
      rw [find?_withRegistry hatoms] at hname
      exact .refused (by simp [Request.refusal, hatoms, hname]) (Unchanged.internLabels hatoms)
    case h_2 hname =>
      have hfree := find?_withRegistry hatoms ▸ hname
      have hsubscribers := (Unchanged.internLabels hatoms).subscribers
      have haudience : (Request.register name labels).audience s = (s.withRegistry r).pool.subscribers :=
        hsubscribers.symm
      change Opens judge s _ ((notify judge _ (s.withRegistry r).pool.subscribers _).returning _)
      rw [← haudience]
      exact .opened _ _ (by simp [Request.refusal, hatoms, hfree]) (.join hatoms hname) (.log _ _)

/-- Removing a node. -/
theorem remove_opens (judge : Judge) (name : String) (s : Scheduler) :
    Opens judge s (.remove name) (Dialogue.alone (s.remove name)) := by
  unfold remove
  split
  case h_1 hname => exact .refused (by simp [Request.refusal, hname]) (.refl s)
  case h_2 n hname => exact .alone (by simp [Request.refusal, hname]) rfl (.leave name) (.logAll _ _) n

/-- Taking or releasing a node. -/
theorem setState_opens (judge : Judge) (name : String) (state : NodeState) (s : Scheduler) :
    Opens judge s (.setState name state) (s.setState judge name state) := by
  unfold setState
  split
  case h_1 hfind => exact .refused (by simp [Request.refusal, hfind]) (.refl s)
  case h_2 n hfind =>
    cases state with
    | busy =>
        have hturn : s.Opening (.setState name .busy) _ := .turn hfind NodeState.noConfusion
        exact .alone (by simp [Request.refusal, hfind]) rfl hturn (.log _ _) ()
    | idle =>
        cases hholds : n.holds with
        | some i => exact .refused (by simp [Request.refusal, hfind, hholds]) (.refl s)
        | none =>
            simp only [if_true]
            rw [← Dialogue.andThen_done (notify ..)]
            exact .opened _ (fun _ => ()) (by simp [Request.refusal, hfind, hholds])
              (.turn hfind fun _ => hholds) (.log _ _)

/-- Submitting an item. -/
theorem submit_opens (judge : Judge) (q : Nat) (label : Part) (task : String) (blockers : List Blocker)
    (s : Scheduler) : Opens judge s (.submit q label task blockers) (s.submit judge q label task blockers) := by
  unfold submit
  split
  case h_1 hlabel => exact .refused (by simp [Request.refusal, hlabel]) (.of_readLabel hlabel)
  case h_2 s₁ e hlabel =>
    simp only
    split
    case h_1 hname =>
      have hmark : '#' ∈ task.toList := by
        by_contra hunmarked
        obtain ⟨name, hsome⟩ := taskNamed_isSome hunmarked (s₁.queue q).nextId
        rw [hname] at hsome
        cases hsome
      exact .refused (by simp [Request.refusal, hlabel, hmark]) (.of_readLabel hlabel)
    case h_2 name hname =>
      have hunmarked : '#' ∉ task.toList := by
        intro hmark
        rw [taskNamed_eq_none hmark] at hname
        cases hname
      exact .matching (by simp [Request.refusal, hlabel, hunmarked]) rfl (.enter hlabel hname) (.log _ _) _

/-- Cancelling an item. -/
theorem cancel_opens (judge : Judge) (q : Nat) (item : ItemRef) (s : Scheduler) :
    Opens judge s (.cancel q item) (s.cancel judge q item) := by
  unfold cancel
  split
  case isTrue hpending =>
    exact .matching rfl (by simp [Request.audience, hpending]) (.withdraw hpending) (.refl _) _
  case isFalse hnot =>
    exact .alone rfl (by simp [Request.audience, hnot]) (.vain (Bool.eq_false_iff.mpr hnot)) (.log _ _) false

/-- Reporting that the work on an item has begun. -/
theorem started_opens (judge : Judge) (q : Nat) (item : ItemRef) (s : Scheduler) :
    Opens judge s (.started q item) (Dialogue.alone (s.started q item)) := by
  unfold started
  split
  case isTrue hbuilding =>
    exact .alone (by simp [Request.refusal, hbuilding]) rfl (.start hbuilding) (.refl _) ()
  case isFalse hnot => exact .refused (by simp [Request.refusal, hnot]) (.refl s)

/-- Reporting that the work on an item has ended. -/
theorem completed_opens (judge : Judge) (q : Nat) (item : ItemRef) (s : Scheduler) :
    Opens judge s (.completed q item) (s.completed judge q item) := by
  unfold completed
  split
  case isTrue hbuilding =>
    exact .matching (by simp [Request.refusal, hbuilding]) rfl (.complete hbuilding) (.log _ _) _
  case isFalse hnot => exact .refused (by simp [Request.refusal, hnot]) (.refl s)

/-- Matching the items of a queue. -/
theorem maintain_opens (judge : Judge) (q : Nat) (s : Scheduler) :
    Opens judge s (.maintain q) (s.maintain judge q) := by
  have hsame : (s.maintain judge q).returning (fun _ => (matchItems judge q s).made) = s.maintain judge q := by
    rw [Dialogue.returning, maintain, Dialogue.andThen_assoc]
    cases (matchItems judge q s).fault <;> rfl
  rw [← hsame]
  exact .matching rfl rfl (.maintain q) (.refl s) _

end Scheduler

/-- Every operation opens like this. -/
theorem Request.perform_opens (judge : Judge) (s : Scheduler) (r : Request) :
    Opens judge s r (r.perform judge s) := by
  cases r with
  | register name labels => exact (register_opens judge name labels s).map _
  | remove name => exact (remove_opens judge name s).map _
  | setState name state => exact (setState_opens judge name state s).map _
  | submit q label task blockers => exact (submit_opens judge q label task blockers s).map _
  | cancel q item => exact (cancel_opens judge q item s).map _
  | started q item => exact (started_opens judge q item s).map _
  | completed q item => exact (completed_opens judge q item s).map _
  | maintain q => exact (maintain_opens judge q s).map _
  | openQueue listeners => exact .alone rfl rfl (.openQueue listeners) (.refl _) _
  | addListener q p => exact .alone rfl rfl (.listen q p) (.refl _) _
  | addSubscriber p => exact .alone rfl rfl (.subscribe p) (.refl _) _
  | watch p item => exact .alone rfl rfl (.watch p item) (.refl _) _

/-- The operation that a move asks for opens, if it asks for one. -/
inductive Move.Opening (s : Scheduler) : Move → Scheduler → Prop where
  | none (m : Move) : Move.Opening s m s
  | ask {judge : Judge} {r : Request} {t : Scheduler} (h : s.Opening r t) : Move.Opening s (.ask judge r) t

/-- No judge is heard as the operation of a move opens. -/
theorem Move.Opening.effects {s t : Scheduler} {m : Move} (h : m.Opening s t) : Effects ∅ s t := by
  cases h with
  | none => exact .refl
  | ask h => exact Scheduler.Opening.effects h

/-- Once the party has come back, an operation that waits goes on in rounds. -/
def Waiting.RoundsOff (judges : Set Judge) (w : Waiting) : Prop := ∀ u f, (w.resume u f).RoundsOff judges u

namespace Config

variable {judges : Set Judge} {c : Config} {s : Scheduler}

/-- An operation that is entered goes on in rounds, now and when the party has come back. -/
theorem enter_roundsOff {waiting : List Waiting} {d : Dialogue Answer} (h : d.RoundsOff judges s)
    (hwaiting : ∀ w ∈ waiting, w.RoundsOff judges) :
    Rounds judges s (enter waiting d).state ∧ ∀ w ∈ (enter waiting d).waiting, w.RoundsOff judges := by
  cases d with
  | done t result => exact ⟨h, hwaiting⟩
  | tell t news resume => exact ⟨h.1, List.forall_mem_cons.mpr ⟨h.2, hwaiting⟩⟩

/-- A move is an opening, followed by rounds. -/
theorem take_opens (hwaiting : ∀ w ∈ c.waiting, w.RoundsOff judges) {m : Move}
    (hjudge : ∀ judge r, m = .ask judge r → judge ∈ judges) :
    (∃ t, m.Opening c.state t ∧ Rounds judges t (c.take m).state) ∧ ∀ w ∈ (c.take m).waiting, w.RoundsOff judges := by
  cases m with
  | ask judge r =>
      simp only [take]
      split
      case isTrue =>
        obtain ⟨t, hopening, hrounds⟩ := (r.perform_opens judge c.state).roundsOff (hjudge judge r rfl)
        obtain ⟨hfirst, hlater⟩ := enter_roundsOff hrounds hwaiting
        exact ⟨⟨t, .ask hopening, hfirst⟩, hlater⟩
      case isFalse => exact ⟨⟨c.state, .none _, .refl⟩, hwaiting⟩
  | answer f =>
      simp only [take]
      cases hw : c.waiting with
      | nil => exact ⟨⟨c.state, .none _, .refl⟩, fun w hmem => hwaiting w hmem⟩
      | cons w ws =>
          rw [hw] at hwaiting
          obtain ⟨hfirst, hothers⟩ := List.forall_mem_cons.mp hwaiting
          obtain ⟨hnow, hlater⟩ := enter_roundsOff (hfirst c.state f) hothers
          exact ⟨⟨c.state, .none _, hnow⟩, hlater⟩

/-- The judges of the earlier moves of a run are heard in it. -/
theorem heard_concat (moves : List Move) (m : Move) : heard moves ⊆ heard (moves ++ [m]) :=
  fun _ ⟨r, hr⟩ => ⟨r, List.mem_append_left _ hr⟩

/-- The judge of the last move of a run is heard in it. -/
theorem mem_heard_concat {moves : List Move} {m : Move} (judge : Judge) (r : Request) (h : m = .ask judge r) :
    judge ∈ heard (moves ++ [m]) :=
  ⟨r, h ▸ List.mem_append_right _ (List.mem_singleton_self _)⟩

/-- Operations that wait in a run go on in rounds. -/
theorem run_roundsOff (moves : List Move) (hjudges : heard moves ⊆ judges) :
    ∀ w ∈ (run moves).waiting, w.RoundsOff judges := by
  induction moves using List.reverseRecOn with
  | nil => exact fun _ hw => absurd hw List.not_mem_nil
  | append_singleton moves m ih =>
      have hbefore := ih ((heard_concat moves m).trans hjudges)
      rw [run_concat]
      exact (take_opens hbefore fun judge r h => hjudges (mem_heard_concat judge r h)).2

/-- The last move of a run is an opening, followed by rounds. -/
theorem run_concat_opens (moves : List Move) (m : Move) :
    ∃ t, m.Opening (run moves).state t ∧ Rounds (heard (moves ++ [m])) t (run (moves ++ [m])).state := by
  rw [run_concat]
  exact (take_opens (run_roundsOff moves (heard_concat moves m)) mem_heard_concat).1

/-- What openings and rounds preserve is there in every state of a run, if it is there in the beginning. -/
theorem run_preserve {P : Scheduler → Prop} (hempty : P .empty)
    (hopening : ∀ {s t r}, s.WellFormed → s.Opening r t → P s → P t)
    (hrounds : ∀ {s t judges}, s.WellFormed → Rounds judges s t → P s → P t) (moves : List Move) :
    P (run moves).state := by
  induction moves using List.reverseRecOn with
  | nil => exact hempty
  | append_singleton moves m ih =>
      obtain ⟨t, hopen, hround⟩ := run_concat_opens moves m
      have hwell := run_wellFormed moves
      cases hopen with
      | none => exact hrounds hwell hround ih
      | ask hopen => exact hrounds (hwell.effects hopen.effects) hround (hopening hwell hopen ih)

end Config

end LabelScheduler
