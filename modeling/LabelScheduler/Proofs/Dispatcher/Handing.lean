import LabelScheduler.Proofs.Scheduler.Lifecycle

/-!
# What listeners are handed

A listener of a queue is to hear of the assignment of every item of the queue, once for each time that it listens.
It is told by the operation that made the assignment, perhaps long after, since other parties have their say before
it. So at any time operations that are under way owe a listener news of assignments that were made. What is owed is
never lost and never paid twice: with every step of an operation the debt grows by the assignments that the step makes,
and shrinks by the one that the listener is told of, and when the operation ends nothing is owed.
-/

namespace LabelScheduler

open Scheduler

/-- The assignment that this party is told of, if it is. -/
def News.handedTo (p : Party) : News → Option ItemRef
  | .assigned p' item => if p' = p then some item else none
  | .available _ _ => none

namespace Scheduler

variable {reported : Set Nat} {judge : Judge} {s t u : Scheduler} {p : Party} {q : Nat} {item : ItemRef}

/-- The item has been assigned. -/
def given (s : Scheduler) (item : ItemRef) : Bool := (s.get? item).any (·.assignment.isSome)

/-- An item that has an assignment has been assigned. -/
theorem given_of_assignment {e : Entrant} {a : Assignment} (he : s.get? item = some e) (ha : e.assignment = some a) :
    s.given item = true := by
  rw [given, he, Option.any_some, ha]
  rfl

/-- How often the party is to hear of the assignment of the item. -/
def due (p : Party) (item : ItemRef) (s : Scheduler) : Nat :=
  if s.given item then (s.queue item.queue).listeners.count p else 0

/-- What is known of every state that parties can see. -/
structure Visible (s : Scheduler) : Prop where
  wellFormed : s.WellFormed
  consistent : s.Consistent

/-- It stays known. -/
theorem Visible.changes (h : s.Visible) (hst : Changes reported s t) : t.Visible :=
  ⟨h.wellFormed.effects (hst.effects h.wellFormed), h.consistent.changes h.wellFormed hst⟩

/-- No item gets an assignment, and the same parties listen. -/
structure Uneventful (s t : Scheduler) : Prop where
  given : ∀ item, t.given item = s.given item
  listeners : ∀ q, (t.queue q).listeners = (s.queue q).listeners

namespace Uneventful

/-- What is due stays the same. -/
theorem due (h : Uneventful s t) (p : Party) (item : ItemRef) : t.due p item = s.due p item := by
  rw [Scheduler.due, Scheduler.due, h.given, h.listeners]

/-- The queues may stay as they are. -/
theorem of_queue (h : ∀ q, t.queue q = s.queue q) : Uneventful s t where
  given item := by rw [Scheduler.given, Scheduler.given, get?, get?, h]
  listeners q := by rw [h]

/-- One thing after the other. -/
protected theorem trans (h : Uneventful s t) (h' : Uneventful t u) : Uneventful s u :=
  ⟨fun item => (h'.given item).trans (h.given item), fun q => (h'.listeners q).trans (h.listeners q)⟩

/-- Items may change but for their assignments. -/
theorem of_passive (hpassive : Passive s t) (hst : s.Reaches t)
    (hlisteners : ∀ q, (t.queue q).listeners = (s.queue q).listeners) : Uneventful s t where
  given item := by
    rw [Scheduler.given, Scheduler.given]
    cases he : s.get? item with
    | none =>
        cases he' : t.get? item with
        | none => rfl
        | some e' =>
            obtain ⟨e, hold, -⟩ := hpassive item e' he'
            cases he.symm.trans hold
    | some e =>
        obtain ⟨e', he', -⟩ := (Grows.effects hst).items he
        obtain ⟨e₀, hold, hstays⟩ := hpassive item e' he'
        obtain rfl := Option.some.inj (he.symm.trans hold)
        rw [he', Option.any_some, Option.any_some, hstays.assignment]
  listeners := hlisteners

end Uneventful

/-- Changing a queue but for its listeners changes no listeners. -/
theorem listeners_withQueue (s : Scheduler) (q : Nat) {f : Queue → Queue} (hf : ∀ r, (f r).listeners = r.listeners)
    (j : Nat) : ((s.withQueue q f).queue j).listeners = (s.queue j).listeners := by
  rw [queue_withQueue]
  split
  case isTrue => exact hf _
  case isFalse => rfl

/-- Letting a party listen changes no item. -/
theorem get?_addListener (s : Scheduler) (q : Nat) (p : Party) (item : ItemRef) :
    (s.addListener q p).get? item = s.get? item := by
  rw [get?, get?, addListener, queue_withQueue]
  split
  case isTrue => exact Queue.get?_congr rfl _
  case isFalse => rfl

/-- So it assigns none. -/
theorem given_addListener (s : Scheduler) (q : Nat) (p : Party) (item : ItemRef) :
    (s.addListener q p).given item = s.given item := by
  rw [given, given, get?_addListener]

/-- An item that enters is not assigned. -/
theorem enter_uneventful (s : Scheduler) (q : Nat) (i : Item) : Uneventful s (s.withQueue q (·.add i)) where
  given item := by
    rw [given, given, get?, get?, queue_withQueue]
    split
    case isTrue =>
      rw [Queue.get?_add]
      split
      case isTrue hid =>
        rw [hid, Queue.get?_nextId]
        rfl
      case isFalse => rfl
    case isFalse => rfl
  listeners := listeners_withQueue s q fun _ => rfl

/-- An item that is cancelled is not assigned. -/
theorem cancelled_uneventful (hs : s.WellFormed) (h : s.isPendingIn q item = true) (event : Event) :
    Uneventful s (((s.withQueue q (·.withdraw item.id)).log event).settle item .withdrawn) := by
  obtain ⟨e, he⟩ := (hs.queues q).known (.inl (mem_of_isPendingIn h).2)
  obtain ⟨e', he', -⟩ := get?_of_withdraw h
  have hlogged : ((s.withQueue q (·.withdraw item.id)).log event).get? item = some e' := he'
  have hwithdrawn : Passive s (s.withQueue q (·.withdraw item.id)) :=
    .withQueue (Queue.stays_of_update rfl (Queue.pos_of_get? he) fun _ _ => ⟨rfl, rfl, Bool.noConfusion⟩)
  have hchanges : Changes Set.univ s _ := cancelled_changes h event
  refine .of_passive (hwithdrawn.trans ((Passive.alike (.log _ event)).trans (.settle hlogged _))) (hchanges.effects hs)
    fun j => ?_
  rw [(settle_alike hlogged _).queue]
  refine (listeners_withQueue _ _ ?_ j).trans (listeners_withQueue s q ?_ j) <;> exact fun _ => rfl

/-- An item that is reported running has been assigned before. -/
theorem start_uneventful (hs : s.WellFormed) (h : s.isBuildingIn q item = true) :
    Uneventful s (s.withQueue q (·.start item.id)) := by
  have hmem := (mem_of_isBuildingIn h).2
  obtain ⟨e, he⟩ := (hs.queues q).known (.inr hmem)
  refine .of_passive (.withQueue (Queue.stays_of_update rfl (Queue.pos_of_get? he) fun e he => ?_))
    (.single (.start h)) (listeners_withQueue s q fun _ => rfl)
  exact ⟨rfl, rfl, fun _ => ((hs.queues q).building_iff he).mp hmem⟩

/-- An item that completes has been assigned before. -/
theorem conclude_uneventful (hs : s.WellFormed) (h : s.isBuildingIn q item = true) :
    Uneventful s (s.conclude q item) := by
  refine .of_passive (.conclude hs h) (.single (.complete h)) fun j => ?_
  rw [queue_conclude]
  split <;> rfl

/-- A registry may be put in place. -/
theorem withRegistry_uneventful (s : Scheduler) (r : Registry) : Uneventful s (s.withRegistry r) :=
  .of_queue (Alike.logAll s _).queue

/-- The label of a submission may be read. -/
theorem readLabel_uneventful (s : Scheduler) (part : Part) : Uneventful s (s.readLabel part).1 := by
  rcases readLabel_cases s part with h | ⟨text, h⟩
  · rw [h]
    exact .of_queue fun _ => rfl
  · rw [h]
    exact .of_queue (Alike.logAll s _).queue

/-- A node may be removed. -/
theorem remove_uneventful (s : Scheduler) (name : String) : Uneventful s (s.remove name).1 := by
  unfold remove
  split
  case h_1 => exact .of_queue fun _ => rfl
  case h_2 => exact .of_queue (Alike.logAll _ _).queue

end Scheduler

/-! ### What operations owe -/

/-- How often the party is told of the assignment of the item by this news. -/
def News.tells (p : Party) (item : ItemRef) (news : News) : Nat := if news.handedTo p = some item then 1 else 0

/-- A party is told of an assignment by the news that is for itself. -/
theorem News.tells_assigned (p p' : Party) (item item' : ItemRef) :
    (News.assigned p' item').tells p item = if p' = p ∧ item = item' then 1 else 0 := by
  by_cases hp : p' = p
  · simp [tells, handedTo, hp, @eq_comm _ item']
  · simp [tells, handedTo, hp]

/-- How many news of the assignment of the item a party is owed before and after something happens in which it is
told nothing: with what comes to be due it is owed more, and it listens as before. -/
structure Scheduler.Accrues (p : Party) (item : ItemRef) (owed : Nat) (s t : Scheduler) (later : Nat) : Prop where
  listeners : ∀ q, (t.queue q).listeners.count p = (s.queue q).listeners.count p
  balance : owed + t.due p item = s.due p item + later

namespace Scheduler

variable {p : Party} {item : ItemRef} {owed m later : Nat} {s t u : Scheduler}

/-- One thing after the other. -/
theorem Accrues.trans (h : Accrues p item owed s t m) (h' : Accrues p item m t u later) :
    Accrues p item owed s u later where
  listeners q := (h'.listeners q).trans (h.listeners q)
  balance := by
    have hfirst := h.balance
    have hsecond := h'.balance
    omega

/-- Where nothing is assigned, what is owed stays the same. -/
theorem Uneventful.accrues (h : Uneventful s t) (p : Party) (item : ItemRef) (owed : Nat) :
    Accrues p item owed s t owed where
  listeners q := by rw [h.listeners]
  balance := by rw [h.due, Nat.add_comm]

end Scheduler

namespace Dialogue

variable {α β : Type} {reported : Set Nat} {p : Party} {item : ItemRef} {owed : Nat} {s t : Scheduler}
  {d : Dialogue α}

/-- The dialogue, begun in a state in which the party is owed this many news of the assignment of the item, pays them
all, with those that come to be due in its course. -/
def Owes (p : Party) (item : ItemRef) : Dialogue α → Nat → Scheduler → Prop
  | .done t _, owed, s => s.Accrues p item owed t 0
  | .tell t news resume, owed, s => ∃ later, s.Accrues p item owed t (news.tells p item + later) ∧
    ∀ u f, u.Visible → (resume u f).Owes p item later u

namespace Owes

/-- What becomes due before a dialogue is owed by it. -/
theorem head {later : Nat} (h : d.Owes p item later t) (hst : s.Accrues p item owed t later) :
    d.Owes p item owed s := by
  cases d with
  | done u result => exact hst.trans h
  | tell u news resume =>
      obtain ⟨rest, hrest, hresume⟩ := h
      exact ⟨rest, hst.trans hrest, hresume⟩

/-- Nothing may become due before a dialogue. -/
theorem uneventful (h : d.Owes p item owed t) (hst : Uneventful s t) : d.Owes p item owed s :=
  h.head (hst.accrues p item owed)

/-- A dialogue may go on after success with one that owes nothing. -/
theorem andThen {next : Scheduler → α → Dialogue β} (h : d.Owes p item owed s) (hs : s.Visible)
    (hadvances : d.Advances reported s) (hnext : ∀ t a, t.Visible → (next t a).Owes p item 0 t) :
    (d.andThen next).Owes p item owed s := by
  induction d generalizing owed s with
  | done t result =>
      cases result with
      | ok a => exact (hnext t a (hs.changes hadvances)).head h
      | error f => exact h
  | tell t news resume ih =>
      obtain ⟨rest, hrest, hresume⟩ := h
      exact ⟨rest, hrest, fun u f hu => ih u f (hresume u f hu) hu (hadvances.2 u f)⟩

/-- A dialogue may give another result. -/
theorem concluding {next : Scheduler → α → Dialogue β} (h : d.Owes p item owed s)
    (hnext : ∀ t a, ∃ result, next t a = .done t result) : (d.andThen next).Owes p item owed s := by
  induction d generalizing owed s with
  | done t result =>
      cases result with
      | ok a =>
          obtain ⟨result, hresult⟩ := hnext t a
          rw [Dialogue.andThen, hresult]
          exact h
      | error f => exact h
  | tell t news resume ih =>
      obtain ⟨rest, hrest, hresume⟩ := h
      exact ⟨rest, hrest, fun u f hu => ih u f (hresume u f hu)⟩

/-- Another result may be given. -/
theorem returning (h : d.Owes p item owed s) (g : Scheduler → β) : (d.returning g).Owes p item owed s :=
  h.concluding fun _ _ => ⟨_, rfl⟩

/-- The result may be changed. -/
theorem map (h : d.Owes p item owed s) (g : α → β) : (d.map g).Owes p item owed s :=
  h.concluding fun _ _ => ⟨_, rfl⟩

/-- An operation that ends at once without anything becoming due owes nothing. -/
theorem ended (h : Uneventful s t) (result : Except Fault α) : (Dialogue.done t result).Owes p item 0 s :=
  h.accrues p item 0

end Owes

end Dialogue

namespace Scheduler

variable {judge : Judge} {s t : Scheduler} {p : Party} {q : Nat} {item : ItemRef}

/-- How often a party is told of the assignment of an item while these listeners are told of these items. -/
def outstanding (p : Party) (item : ItemRef) (q : Nat) (pairs : List (Nat × Party)) : Nat :=
  pairs.countP fun pair => (News.assigned pair.2 ⟨q, pair.1⟩).handedTo p = some item

/-- The first listener is told, and then the others. -/
theorem outstanding_cons (p : Party) (item : ItemRef) (q : Nat) (pair : Nat × Party) (pairs : List (Nat × Party)) :
    outstanding p item q (pair :: pairs) =
      (News.assigned pair.2 ⟨q, pair.1⟩).tells p item + outstanding p item q pairs := by
  simp only [outstanding, List.countP_cons, decide_eq_true_eq, News.tells, Nat.add_comm]

/-- An announcement owes a party the assignments that it is still to be told of. -/
theorem tellListeners_owes (p : Party) (item : ItemRef) (q : Nat) (pairs : List (Nat × Party)) (first : Option Fault)
    (s : Scheduler) : (tellListeners q pairs first s).Owes p item (outstanding p item q pairs) s := by
  induction pairs generalizing first s with
  | nil => cases first <;> exact .ended (.of_queue fun _ => rfl) _
  | cons pair pairs ih =>
      have hnoted : Uneventful s (s.recordAssigned pair.2 ⟨q, pair.1⟩) :=
        .of_queue (recordAssigned_alike s pair.2 ⟨q, pair.1⟩).queue
      rw [outstanding_cons]
      refine ⟨outstanding p item q pairs, hnoted.accrues p item _, fun u f _ => ?_⟩
      · cases f with
        | none => exact ih first u
        | some f => exact (ih _ _).uneventful (.of_queue (logFailure_alike u ⟨q, pair.1⟩ f).queue)

/-- A listener is told of an item as often as it listens. -/
theorem outstanding_single (p : Party) (item : ItemRef) (q id : Nat) (listeners : List Party) :
    outstanding p item q (listeners.map (id, ·)) = if item = ⟨q, id⟩ then listeners.count p else 0 := by
  induction listeners with
  | nil => simp [outstanding]
  | cons p' listeners ih =>
      rw [List.map_cons, outstanding_cons, ih, List.count_cons]
      by_cases hitem : item = ⟨q, id⟩
      · simp [News.tells_assigned, hitem, Nat.add_comm]
      · simp [News.tells_assigned, hitem]

/-- In an announcement of assignments, each of them once, a party is told of an item as often as it listens. -/
theorem outstanding_announced {made : List Nat} (hdistinct : made.Nodup) (p : Party) (item : ItemRef) (q : Nat)
    (listeners : List Party) : outstanding p item q (made.flatMap fun id => listeners.map (id, ·)) =
      if item.queue = q ∧ item.id ∈ made then listeners.count p else 0 := by
  induction made with
  | nil => simp [outstanding]
  | cons id made ih =>
      obtain ⟨hnew, hdistinct⟩ := List.nodup_cons.mp hdistinct
      rw [List.flatMap_cons, outstanding, List.countP_append, ← outstanding, ← outstanding, outstanding_single,
        ih hdistinct]
      by_cases hitem : item = ⟨q, id⟩
      · subst hitem
        simp [hnew]
      · have hother : item.queue = q → item.id ≠ id := fun hq hid => hitem (by rw [← hq, ← hid])
        simp only [if_neg hitem, Nat.zero_add, List.mem_cons]
        refine if_congr (and_congr_right fun hq => ?_) rfl rfl
        exact (or_iff_right (hother hq)).symm

/-- With a round of matching a party comes to be owed that it hears of what was assigned. -/
theorem published_accrues (hs : s.Visible) (judge : Judge) (q : Nat) (p : Party) (item : ItemRef) :
    s.Accrues p item 0 (s.published judge q) (outstanding p item q
      ((matchItems judge q s).made.flatMap fun id => ((s.published judge q).queue q).listeners.map (id, ·))) := by
  have hplaced := matchItems_placed hs.wellFormed judge q
  have hlisteners (j : Nat) : ((s.published judge q).queue j).listeners = (s.queue j).listeners := by
    rw [(published_promised judge q s).listeners]
    by_cases hj : j = q
    · rw [hj, hplaced.listeners]
    · rw [hplaced.elsewhere j hj]
  refine ⟨fun j => by rw [hlisteners], ?_⟩
  rw [outstanding_announced hplaced.distinct, Nat.zero_add]
  rcases get?_published hs.wellFormed judge q item with ⟨rfl, hmade, e, a, he, hpending, hassigned⟩ | ⟨hother, hsame⟩
  · have hbefore : s.given item = false := by
      cases hs.consistent item e he with
      | waits _ ha _ => rw [given, he, Option.any_some, ha]; rfl
      | given _ hstate _ _ => exact absurd hpending hstate.1
      | withdrawn hstate _ _ => cases hpending.symm.trans hstate
    have hafter : (s.published judge item.queue).given item = true := given_of_assignment hassigned rfl
    rw [due, due, hbefore, hafter, if_pos rfl, if_neg Bool.false_ne_true, if_pos ⟨rfl, hmade⟩, Nat.zero_add]
  · have hdue : (s.published judge q).due p item = s.due p item := by rw [due, due, given, given, hsame, hlisteners]
    have hnone : ¬ (item.queue = q ∧ item.id ∈ (matchItems judge q s).made) := fun hmade => hother hmade.1 hmade.2
    rw [hdue, if_neg hnone, Nat.add_zero]

/-- Matching owes nothing beforehand. -/
theorem maintain_owes (hs : s.Visible) (judge : Judge) (q : Nat) (p : Party) (item : ItemRef) :
    (s.maintain judge q).Owes p item 0 s := by
  have hannounced := tellListeners_owes p item q
    ((matchItems judge q s).made.flatMap fun id => ((s.published judge q).queue q).listeners.map (id, ·)) none
    (s.published judge q)
  refine (hannounced.head (published_accrues hs judge q p item)).concluding fun t _ => ?_
  cases (matchItems judge q s).fault <;> exact ⟨_, rfl⟩

/-- Making a node available owes nothing beforehand. -/
theorem notify_owes (hs : s.Visible) (judge : Judge) (node : Node) (subs : List Subscriber) (p : Party)
    (item : ItemRef) : (s.notify judge node subs).Owes p item 0 s := by
  induction subs generalizing s with
  | nil => exact .ended (.of_queue fun _ => rfl) _
  | cons sub subs ih =>
      cases sub with
      | queue q =>
          have hadvances : (s.maintain judge q).Advances Set.univ s := maintain_advances judge q s
          exact (maintain_owes hs judge q p item).andThen hs hadvances fun t _ ht => ih ht
      | party p' =>
          have hnoted : Uneventful s (s.record (.available p' ((s.pool.registered? node.serial).getD node).name
            ((s.pool.registered? node.serial).getD node).state)) := .of_queue fun _ => rfl
          refine ⟨0, hnoted.accrues p item 0, fun u f hu => ?_⟩
          cases f with
          | none => exact ih hu
          | some f => exact .ended (.of_queue fun _ => rfl) _

/-- Registering a node owes nothing beforehand. -/
theorem register_owes (hs : s.Visible) (judge : Judge) (name : String) (labels : NodeLabels) (p : Party)
    (item : ItemRef) : (s.register judge name labels).Owes p item 0 s := by
  unfold register
  split
  case h_1 r _ _ => exact .ended (withRegistry_uneventful s r) _
  case h_2 r atoms _ =>
    have hread := withRegistry_uneventful s r
    simp only
    split
    case h_1 => exact .ended hread _
    case h_2 hname =>
      have hjoin : Changes Set.univ s (((s.withRegistry r).withPool (·.add name atoms)).log (.nodeRegistered name
          (Node.fresh name atoms (s.withRegistry r).pool.enrolled).labelsText)) :=
        (withRegistry_changes s r).trans (.head (.join atoms hname) (.single (.note (.log _ _))))
      have hnotify := notify_owes (hs.changes hjoin) judge (Node.fresh name atoms (s.withRegistry r).pool.enrolled)
        (((s.withRegistry r).withPool (·.add name atoms)).log (.nodeRegistered name
          (Node.fresh name atoms (s.withRegistry r).pool.enrolled).labelsText)).pool.subscribers p item
      exact (hnotify.uneventful (hread.trans (.of_queue fun _ => rfl))).returning _

/-- Taking or releasing a node owes nothing beforehand. -/
theorem setState_owes (hs : s.Visible) (judge : Judge) (name : String) (state : NodeState) (p : Party)
    (item : ItemRef) : (s.setState judge name state).Owes p item 0 s := by
  unfold setState
  split
  case h_1 => exact .ended (.of_queue fun _ => rfl) _
  case h_2 n hfind =>
    cases state with
    | busy =>
        refine .ended ?_ (.ok ())
        exact .of_queue fun _ => rfl
    | idle =>
        cases hholds : n.holds with
        | some i => exact .ended (.of_queue fun _ => rfl) _
        | none =>
            have hturn : Changes Set.univ s ((s.withPool (·.update name fun n => { n with state := .idle })).log
                (.nodeStateChanged name n.state.name NodeState.idle.name)) :=
              .head (.turn .idle hfind fun _ => hholds) (.single (.note (.log _ _)))
            exact (notify_owes (hs.changes hturn) judge _ _ p item).uneventful (.of_queue fun _ => rfl)

/-- Submitting an item owes nothing beforehand. -/
theorem submit_owes (hs : s.Visible) (judge : Judge) (q : Nat) (label : Part) (task : String)
    (blockers : List Blocker) (p : Party) (item : ItemRef) :
    (s.submit judge q label task blockers).Owes p item 0 s := by
  have hread := readLabel_uneventful s label
  have hchanges : Changes Set.univ s (s.readLabel label).1 := readLabel_changes s label
  unfold submit
  generalize s.readLabel label = given at hread hchanges ⊢
  obtain ⟨s₁, f | e⟩ := given
  · exact .ended hread _
  · simp only
    split
    case h_1 => exact .ended hread _
    case h_2 name _ =>
      let i : Item := ⟨(s₁.queue q).nextId, name, e, blockers⟩
      have henter : Changes Set.univ s ((s₁.withQueue q (·.add i)).log (.itemSubmitted i.id name.text i.labelName)) :=
        hchanges.trans (.head (.enter rfl) (.single (.note (.log _ _))))
      have hentered := (hread.trans (enter_uneventful s₁ q i)).trans
        (.of_queue (Alike.log _ (.itemSubmitted i.id name.text i.labelName)).queue)
      exact ((maintain_owes (hs.changes henter) judge q p item).uneventful hentered).returning _

/-- Cancelling an item owes nothing beforehand. -/
theorem cancel_owes (hs : s.Visible) (judge : Judge) (q : Nat) (item' : ItemRef) (p : Party) (item : ItemRef) :
    (s.cancel judge q item').Owes p item 0 s := by
  unfold cancel
  split
  case isTrue hpending =>
    have hcancelled : Changes Set.univ s _ := cancelled_changes hpending (.itemCancelled item'.id true)
    have hquiet := cancelled_uneventful hs.wellFormed hpending (.itemCancelled item'.id true)
    exact ((maintain_owes (hs.changes hcancelled) judge q p item).uneventful hquiet).returning _
  case isFalse =>
    refine .ended ?_ (.ok false)
    exact .of_queue fun _ => rfl

/-- Reporting that work has begun owes nothing. -/
theorem started_owes (hs : s.Visible) (q : Nat) (item' : ItemRef) (p : Party) (item : ItemRef) :
    (Dialogue.alone (s.started q item')).Owes p item 0 s := by
  unfold started
  split
  case isTrue hbuilding => exact .ended (start_uneventful hs.wellFormed hbuilding) _
  case isFalse => exact .ended (.of_queue fun _ => rfl) _

/-- Reporting that work has ended owes nothing beforehand. -/
theorem completed_owes (hs : s.Visible) (judge : Judge) (q : Nat) (item' : ItemRef) (p : Party) (item : ItemRef) :
    (s.completed judge q item').Owes p item 0 s := by
  unfold completed
  split
  case isTrue hbuilding =>
    have hcomplete : Changes Set.univ s ((s.conclude q item').log
        (.itemCompleted item'.id ((s.get? item').bind Entrant.node))) :=
      .head (.complete (Set.mem_univ q) hbuilding) (.single (.note (.log _ _)))
    have hconcluded := (conclude_uneventful hs.wellFormed hbuilding).trans
      (.of_queue (Alike.log _ (.itemCompleted item'.id ((s.get? item').bind Entrant.node))).queue)
    exact ((maintain_owes (hs.changes hcomplete) judge q p item).uneventful hconcluded).returning _
  case isFalse => exact .ended (.of_queue fun _ => rfl) _

/-- Opening a queue with other listeners makes nothing due. -/
theorem openQueue_accrues (s : Scheduler) {listeners : List Party} (hp : p ∉ listeners) (item : ItemRef) :
    s.Accrues p item 0 (s.openQueue listeners) 0 := by
  have hnobody : Queue.empty.listeners.count p = 0 := rfl
  have hclosed {j : Nat} (hj : j = s.queues.length) : s.queue j = .empty :=
    List.getD_eq_default _ _ (Nat.le_of_eq hj.symm)
  constructor
  · intro j
    rw [queue_openQueue]
    split
    case isTrue hj => rw [List.count_eq_zero.mpr hp, hclosed hj, hnobody]
    case isFalse => rfl
  · rw [Nat.zero_add, Nat.add_zero, due, due, given, given, get?, get?, queue_openQueue]
    split
    case isTrue hq =>
      rw [List.count_eq_zero.mpr hp, hclosed hq, hnobody]
      split <;> split <;> rfl
    case isFalse => rfl

/-- Letting another party listen makes nothing due. -/
theorem addListener_accrues (s : Scheduler) (q : Nat) {p' : Party} (hp : p' ≠ p) (item : ItemRef) :
    s.Accrues p item 0 (s.addListener q p') 0 := by
  have hcount (j : Nat) : ((s.addListener q p').queue j).listeners.count p = (s.queue j).listeners.count p := by
    rw [addListener, queue_withQueue]
    split
    case isTrue => simp [List.count_append, hp]
    case isFalse => rfl
  exact ⟨hcount, by rw [Nat.zero_add, Nat.add_zero, due, due, given_addListener, hcount]⟩

/-- Watching an item makes nothing due. -/
theorem watch_uneventful (s : Scheduler) (p : Party) (item : ItemRef) : Uneventful s (s.watch p item) := by
  rcases watch_cases s p item with h | ⟨e, he, h⟩
  · exact .of_queue h.queue
  · have hpassive : Passive s (s.watch p item) := h ▸ Passive.update he fun _ => ⟨rfl, rfl, id⟩
    refine .of_passive hpassive (.single (.watch p item)) fun j => ?_
    rw [h]
    refine listeners_withQueue s item.queue ?_ j
    exact fun _ => rfl

end Scheduler

/-- The operation lets the party listen to the assignments of a queue. -/
def Request.attaches (p : Party) : Request → Bool
  | .openQueue listeners => listeners.contains p
  | .addListener _ p' => p' == p
  | _ => false

/-- An operation owes nothing beforehand to a party, unless it lets the party listen. -/
theorem Request.perform_owes {s : Scheduler} (hs : s.Visible) (judge : Judge) {r : Request} {p : Party}
    (hr : r.attaches p = false) (item : ItemRef) : (r.perform judge s).Owes p item 0 s := by
  cases r with
  | register name labels => exact (register_owes hs judge name labels p item).map _
  | remove name => exact Dialogue.Owes.map (d := .alone (s.remove name)) (.ended (remove_uneventful s name) _) _
  | setState name state => exact (setState_owes hs judge name state p item).map _
  | submit q label task blockers => exact (submit_owes hs judge q label task blockers p item).map _
  | cancel q item' => exact (cancel_owes hs judge q item' p item).map _
  | started q item' => exact (started_owes hs q item' p item).map _
  | completed q item' => exact (completed_owes hs judge q item' p item).map _
  | maintain q => exact (maintain_owes hs judge q p item).map _
  | openQueue listeners =>
      have hp : p ∉ listeners := by simpa [attaches] using hr
      exact openQueue_accrues s hp item
  | addListener q p' =>
      have hp : p' ≠ p := by simpa [attaches] using hr
      exact addListener_accrues s q hp item
  | addSubscriber p' =>
      refine .ended ?_ (.ok Answer.nothing)
      exact .of_queue fun _ => rfl
  | watch p' item' => exact .ended (watch_uneventful s p' item') _

end LabelScheduler
