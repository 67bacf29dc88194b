import LabelScheduler.Proofs.Scheduler.Course

/-!
# What parties can see change

While an operation runs, parties look at the scheduler only when they are told news and after the operation has
ended. In between an item may be assigned before its promise is kept, or withdrawn before its promise is, and nobody
sees it like this. A change is what happens as a whole from the point of view of parties: a round of matching
together with the keeping of its promises, and a withdrawal together with that of the promise. Every operation
proceeds by changes alone, from its beginning or from where a party comes back to where the next party is told or
the operation ends, so all states of a run are connected by changes.
-/

namespace LabelScheduler

open Scheduler

namespace Scheduler

variable {reported : Set Nat} {judge : Judge} {s t u : Scheduler} {q : Nat}

/-- The ways in which parties see a scheduler change, if starts and completions are reported in these queues. -/
inductive Change (reported : Set Nat) (s : Scheduler) : Scheduler → Prop where
  | note {t : Scheduler} (h : Alike s t) : Change reported s t
  | read (r : Registry) : Change reported s (s.withPool fun p => { p with registry := r })
  | join {name : String} (labels : List String) (h : s.pool.find? name = none) :
      Change reported s (s.withPool (·.add name labels))
  | leave (name : String) : Change reported s (s.withPool (·.drop name))
  | turn {n : Node} {name : String} (state : NodeState) (h : s.pool.find? name = some n)
      (hfree : state = .idle → n.holds = none) :
      Change reported s (s.withPool (·.update name fun n => { n with state := state }))
  | enter {q : Nat} {i : Item} (h : i.id = (s.queue q).nextId) : Change reported s (s.withQueue q (·.add i))
  | matched (judge : Judge) (q : Nat) : Change reported s (s.published judge q)
  | cancel {q : Nat} {item : ItemRef} (h : s.isPendingIn q item = true) :
      Change reported s ((s.withQueue q (·.withdraw item.id)).settle item .withdrawn)
  | start {q : Nat} {item : ItemRef} (hq : q ∈ reported) (h : s.isBuildingIn q item = true) :
      Change reported s (s.withQueue q (·.start item.id))
  | complete {q : Nat} {item : ItemRef} (hq : q ∈ reported) (h : s.isBuildingIn q item = true) :
      Change reported s (s.conclude q item)
  | openQueue (listeners : List Party) : Change reported s (s.openQueue listeners)
  | listen (q : Nat) (p : Party) : Change reported s (s.addListener q p)
  | subscribe (p : Party) : Change reported s (s.addSubscriber p)
  | watch (p : Party) (item : ItemRef) : Change reported s (s.watch p item)

/-- Any number of changes, one after the other. -/
abbrev Changes (reported : Set Nat) : Scheduler → Scheduler → Prop := Relation.ReflTransGen (Change reported)

/-- A change consists of effects, on which judges are heard only if it is a round of matching. -/
theorem Change.effects_of {judges : Set Judge} (hs : s.WellFormed) (h : Change reported s t)
    (hjudge : ∀ judge q, t = s.published judge q → judge ∈ judges) : Effects judges s t := by
  cases h with
  | note h => exact .single (.note h)
  | read r => exact .single (.read r)
  | join labels h => exact .single (.join labels h)
  | leave name => exact .single (.leave name)
  | turn state h hfree => exact .single (.turn state h hfree)
  | enter h => exact .single (.enter h)
  | matched judge q => exact published_effects hs (hjudge judge q rfl) q
  | cancel h =>
      obtain ⟨e, he, hstate⟩ := get?_of_withdraw h
      exact .head (.withdraw h) (.single (.renounce he hstate))
  | start hq h => exact .single (.start h)
  | complete hq h => exact .single (.complete h)
  | openQueue listeners => exact .single (.openQueue listeners)
  | listen q p => exact .single (.listen q p)
  | subscribe p => exact .single (.subscribe p)
  | watch p item => exact .single (.watch p item)

/-- A change consists of effects. -/
theorem Change.effects (hs : s.WellFormed) (h : Change reported s t) : s.Reaches t :=
  h.effects_of hs fun judge _ _ => Set.mem_univ judge

namespace Changes

/-- Changes consist of effects. -/
theorem effects (hs : s.WellFormed) (h : Changes reported s t) : s.Reaches t := by
  induction h with
  | refl => exact .refl
  | tail _ hchange ih => exact ih.trans (hchange.effects (hs.effects ih))

/-- What every change of a well-formed state preserves is preserved by all of them together. -/
theorem preserve {P : Scheduler → Prop} (hstep : ∀ {s t}, s.WellFormed → P s → Change reported s t → P t)
    (hs : s.WellFormed) (h : Changes reported s t) (hP : P s) : P t := by
  induction h with
  | refl => exact hP
  | tail hbefore hchange ih => exact hstep (hs.effects (effects hs hbefore)) ih hchange

end Changes

/-- Putting a registry in place. -/
theorem withRegistry_changes (s : Scheduler) (r : Registry) : Changes reported s (s.withRegistry r) :=
  .head (.note (.logAll _ _)) (.single (.read r))

/-- Reading the label of a submission. -/
theorem readLabel_changes (s : Scheduler) (p : Part) : Changes reported s (s.readLabel p).1 := by
  rcases readLabel_cases s p with h | ⟨text, h⟩
  · rw [h]
  · exact h ▸ .head (.note (.logAll _ _)) (.single (.read _))

/-- Removing a node. -/
theorem remove_changes (s : Scheduler) (name : String) : Changes reported s (s.remove name).1 := by
  unfold remove
  split
  case h_1 => exact .refl
  case h_2 => exact .head (.leave name) (.single (.note (.logAll _ _)))

/-- Reporting an item running. -/
theorem started_changes (s : Scheduler) (hq : q ∈ reported) (item : ItemRef) :
    Changes reported s (s.started q item).1 := by
  unfold started
  split
  case isTrue hbuilding => exact .single (.start hq hbuilding)
  case isFalse => exact .refl

/-- Cancelling a pending item, before its queue is matched again. -/
theorem cancelled_changes {item : ItemRef} (h : s.isPendingIn q item = true) (e : Event) :
    Changes reported s (((s.withQueue q (·.withdraw item.id)).log e).settle item .withdrawn) := by
  obtain ⟨e', he', -⟩ := get?_of_withdraw h
  have hlogged : ((s.withQueue q (·.withdraw item.id)).log e).get? item = some e' := he'
  have hnoted := Alike.log ((s.withQueue q (·.withdraw item.id)).withQueue item.queue
    (·.update item.id fun e => { e with promise := .withdrawn })) e
  have halike := ((settle_alike he' .withdrawn).symm.trans hnoted).trans (settle_alike hlogged .withdrawn)
  exact .head (.cancel h) (.single (.note halike))

end Scheduler

namespace Dialogue

variable {α β : Type} {reported : Set Nat} {s t : Scheduler} {d : Dialogue α}

/-- A dialogue that is begun in a state proceeds by changes, whatever parties do while they have their say. -/
def Advances (reported : Set Nat) : Dialogue α → Scheduler → Prop
  | .done t _, s => Changes reported s t
  | .tell t _ resume, s => Changes reported s t ∧ ∀ u f, (resume u f).Advances reported u

namespace Advances

/-- Changes may come before a dialogue. -/
theorem head (hst : Changes reported s t) (h : d.Advances reported t) : d.Advances reported s := by
  cases d with
  | done u result => exact hst.trans h
  | tell u news resume => exact ⟨hst.trans h.1, h.2⟩

/-- A dialogue that goes on after success proceeds by changes if both of its parts do. -/
theorem andThen {next : Scheduler → α → Dialogue β} (h : d.Advances reported s)
    (hnext : ∀ t a, (next t a).Advances reported t) : (d.andThen next).Advances reported s := by
  induction d generalizing s with
  | done t result =>
      cases result with
      | ok a => exact (hnext t a).head h
      | error f => exact h
  | tell t news resume ih => exact ⟨h.1, fun u f => ih u f (h.2 u f)⟩

/-- Another result may be given. -/
theorem returning (h : d.Advances reported s) (g : Scheduler → β) : (d.returning g).Advances reported s :=
  h.andThen fun _ _ => .refl

/-- The result may be changed. -/
theorem map (h : d.Advances reported s) (g : α → β) : (d.map g).Advances reported s :=
  h.andThen fun _ _ => .refl

/-- Where a dialogue proceeds by changes, every way in which it may go on leads to its end by effects. -/
theorem reaches {xs : List Exchange} {result : Except Fault α} (h : d.Advances reported s) (hs : s.WellFormed)
    (hcourse : d.Course xs t result) : s.Reaches t := by
  induction hcourse generalizing s with
  | done => exact Changes.effects hs h
  | @tell told u _ _ _ f _ _ hparty _ ih =>
      have htold : s.Reaches u := (h.1.effects hs).trans hparty
      exact htold.trans (ih (h.2 u f) (hs.effects htold))

end Advances

end Dialogue

namespace Scheduler

variable {reported : Set Nat} {q : Nat}

/-- Telling listeners of assignments. -/
theorem tellListeners_advances (q : Nat) (pairs : List (Nat × Party)) (first : Option Fault) (s : Scheduler) :
    (tellListeners q pairs first s).Advances reported s := by
  induction pairs generalizing first s with
  | nil => cases first <;> exact .refl
  | cons pair pairs ih =>
      refine ⟨.single (.note (recordAssigned_alike s pair.2 ⟨q, pair.1⟩)), fun u f => ?_⟩
      cases f with
      | none => exact ih first u
      | some f => exact (ih _ _).head (.single (.note (logFailure_alike u ⟨q, pair.1⟩ f)))

/-- Matching, and telling the listeners. -/
theorem maintain_advances (judge : Judge) (q : Nat) (s : Scheduler) : (s.maintain judge q).Advances reported s := by
  refine .head (.single (.matched judge q)) ((tellListeners_advances q _ none _).andThen fun t _ => ?_)
  cases (matchItems judge q s).fault <;> exact .refl

/-- Making a node available. -/
theorem notify_advances (judge : Judge) (node : Node) (subs : List Subscriber) (s : Scheduler) :
    (s.notify judge node subs).Advances reported s := by
  induction subs generalizing s with
  | nil => exact .refl
  | cons sub subs ih =>
      cases sub with
      | queue q => exact (maintain_advances judge q s).andThen fun t _ => ih t
      | party p =>
          refine ⟨.single (.note ⟨rfl, rfl⟩), fun u f => ?_⟩
          cases f with
          | none => exact ih u
          | some f => exact .refl

/-- Registering a node. -/
theorem register_advances (judge : Judge) (name : String) (labels : NodeLabels) (s : Scheduler) :
    (s.register judge name labels).Advances reported s := by
  unfold register
  split
  case h_1 => exact withRegistry_changes _ _
  case h_2 r atoms _ =>
    simp only
    split
    case h_1 => exact withRegistry_changes _ _
    case h_2 hname =>
      have hjoin : Changes reported s (((s.withRegistry r).withPool (·.add name atoms)).log (.nodeRegistered name
          (Node.fresh name atoms (s.withRegistry r).pool.enrolled).labelsText)) :=
        (withRegistry_changes s r).trans (.head (.join atoms hname) (.single (.note (.log _ _))))
      exact .head hjoin ((notify_advances judge _ _ _).returning _)

/-- Taking or releasing a node. -/
theorem setState_advances (judge : Judge) (name : String) (state : NodeState) (s : Scheduler) :
    (s.setState judge name state).Advances reported s := by
  unfold setState
  split
  case h_1 => exact .refl
  case h_2 n hfind =>
    have hturn (hfree : state = .idle → n.holds = none) :
        Changes reported s ((s.withPool (·.update name fun n => { n with state := state })).log
          (.nodeStateChanged name n.state.name state.name)) :=
      .head (.turn state hfind hfree) (.single (.note (.log _ _)))
    cases state with
    | busy => exact hturn nofun
    | idle =>
        cases hholds : n.holds with
        | some i => exact .refl
        | none => exact .head (hturn fun _ => hholds) (notify_advances judge _ _ _)

/-- Submitting an item. -/
theorem submit_advances (judge : Judge) (q : Nat) (label : Part) (task : String) (blockers : List Blocker)
    (s : Scheduler) : (s.submit judge q label task blockers).Advances reported s := by
  have hread : Changes reported s (s.readLabel label).1 := readLabel_changes s label
  unfold submit
  split
  case h_1 hlabel =>
    rw [hlabel] at hread
    exact hread
  case h_2 s₁ e hlabel =>
    rw [hlabel] at hread
    simp only
    split
    case h_1 => exact hread
    case h_2 name _ =>
      have henter : Changes reported s ((s₁.withQueue q (·.add ⟨(s₁.queue q).nextId, name, e, blockers⟩)).log
          (.itemSubmitted (s₁.queue q).nextId name.text
            (Item.labelName ⟨(s₁.queue q).nextId, name, e, blockers⟩))) :=
        hread.trans (.head (.enter rfl) (.single (.note (.log _ _))))
      exact .head henter ((maintain_advances judge q _).returning _)

/-- Cancelling an item. -/
theorem cancel_advances (judge : Judge) (q : Nat) (item : ItemRef) (s : Scheduler) :
    (s.cancel judge q item).Advances reported s := by
  unfold cancel
  split
  case isTrue hpending => exact .head (cancelled_changes hpending _) ((maintain_advances judge q _).returning _)
  case isFalse => exact .single (.note (.log _ _))

/-- Completing an item. -/
theorem completed_advances (judge : Judge) (hq : q ∈ reported) (item : ItemRef) (s : Scheduler) :
    (s.completed judge q item).Advances reported s := by
  unfold completed
  split
  case isTrue hbuilding =>
    have hcomplete : Changes reported s ((s.conclude q item).log
        (.itemCompleted item.id ((s.get? item).bind Entrant.node))) :=
      .head (.complete hq hbuilding) (.single (.note (.log _ _)))
    exact .head hcomplete ((maintain_advances judge q _).returning _)
  case isFalse => exact .refl

end Scheduler

/-- The queue in which an operation reports that the work on an item has begun or ended. -/
def Request.reportsIn? : Request → Option Nat
  | .started q _ | .completed q _ => some q
  | _ => none

/-- Every operation proceeds by changes. -/
theorem Request.perform_advances {reported : Set Nat} (judge : Judge) (s : Scheduler) {r : Request}
    (hr : ∀ q, r.reportsIn? = some q → q ∈ reported) : (r.perform judge s).Advances reported s := by
  cases r with
  | register name labels => exact (register_advances judge name labels s).map _
  | remove name => exact Dialogue.Advances.map (d := .alone (s.remove name)) (remove_changes s name) _
  | setState name state => exact (setState_advances judge name state s).map _
  | submit q label task blockers => exact (submit_advances judge q label task blockers s).map _
  | cancel q item => exact (cancel_advances judge q item s).map _
  | started q item =>
      exact Dialogue.Advances.map (d := .alone (s.started q item)) (started_changes s (hr q rfl) item) _
  | completed q item => exact (completed_advances judge (hr q rfl) item s).map _
  | maintain q => exact (maintain_advances judge q s).map _
  | openQueue listeners => exact .single (.openQueue listeners)
  | addListener q p => exact .single (.listen q p)
  | addSubscriber p => exact .single (.subscribe p)
  | watch p item => exact .single (.watch p item)

/-- Once the party has come back, an operation that waits goes on by changes. -/
def Waiting.Advances (reported : Set Nat) (w : Waiting) : Prop := ∀ u f, (w.resume u f).Advances reported u

namespace Config

variable {reported : Set Nat} {s : Scheduler} {c : Config}

/-- Going on with an operation leads by changes to where a party is told or the operation ends. -/
theorem enter_changes {waiting : List Waiting} {d : Dialogue Answer} (h : d.Advances reported s) :
    Changes reported s (enter waiting d).state := by
  cases d with
  | done t result => exact h
  | tell t news resume => exact h.1

/-- From where a party is told, the operation goes on by changes too. -/
theorem enter_advances {waiting : List Waiting} {d : Dialogue Answer} (h : d.Advances reported s)
    (hwaiting : ∀ w ∈ waiting, w.Advances reported) : ∀ w ∈ (enter waiting d).waiting, w.Advances reported := by
  cases d with
  | done t result => exact hwaiting
  | tell t news resume => exact List.forall_mem_cons.mpr ⟨h.2, hwaiting⟩

/-- A move is a matter of changes. -/
theorem take_advances (hwaiting : ∀ w ∈ c.waiting, w.Advances Set.univ) (m : Move) :
    Changes Set.univ c.state (c.take m).state ∧ ∀ w ∈ (c.take m).waiting, w.Advances Set.univ := by
  cases m with
  | ask judge r =>
      simp only [take]
      split
      case isTrue =>
        have hperform : (r.perform judge c.state).Advances Set.univ c.state :=
          r.perform_advances judge c.state fun q _ => Set.mem_univ q
        exact ⟨enter_changes hperform, enter_advances hperform hwaiting⟩
      case isFalse => exact ⟨.refl, hwaiting⟩
  | answer f =>
      simp only [take]
      cases hw : c.waiting with
      | nil => exact ⟨.refl, fun w hmem => hwaiting w hmem⟩
      | cons w ws =>
          rw [hw] at hwaiting
          obtain ⟨hfirst, hothers⟩ := List.forall_mem_cons.mp hwaiting
          exact ⟨enter_changes (hfirst c.state f), enter_advances (hfirst c.state f) hothers⟩

/-- Several moves are a matter of changes. -/
theorem moves_advances (hwaiting : ∀ w ∈ c.waiting, w.Advances Set.univ) (moves : List Move) :
    Changes Set.univ c.state (moves.foldl take c).state ∧
      ∀ w ∈ (moves.foldl take c).waiting, w.Advances Set.univ := by
  induction moves generalizing c with
  | nil => exact ⟨.refl, hwaiting⟩
  | cons m moves ih =>
      obtain ⟨hfirst, hwaiting'⟩ := take_advances hwaiting m
      obtain ⟨hrest, hwaiting''⟩ := ih hwaiting'
      exact ⟨hfirst.trans hrest, hwaiting''⟩

/-- Changes lead from every state of a run to all later ones. -/
theorem run_append_changes (earlier later : List Move) :
    Changes Set.univ (run earlier).state (run (earlier ++ later)).state := by
  have hwaiting := (moves_advances (c := initial) (fun _ hw => absurd hw List.not_mem_nil) earlier).2
  rw [run, run, List.foldl_append]
  exact (moves_advances hwaiting later).1

/-- Changes lead from nothing to every state of a run. -/
theorem run_changes (moves : List Move) : Changes Set.univ .empty (run moves).state :=
  run_append_changes [] moves

end Config

end LabelScheduler
