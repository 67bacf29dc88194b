import LabelScheduler.Scheduler.Operations
import LabelScheduler.Proofs.Pool
import LabelScheduler.Proofs.Queue
import Mathlib.Data.List.GetD
import Mathlib.Data.Set.Insert
import Mathlib.Logic.Relation

/-!
# What can happen to a scheduler

Whatever parties ask for, the pool and the queues change only in a few ways, each of them under a guard:
nodes join, leave and turn, items enter, are assigned, withdrawn, started and completed, and promises are
settled. An effect is one such change as a whole, so an effect never leaves an item without its node or a
node without its item. A property that every effect preserves holds after all of them.
-/

namespace LabelScheduler

namespace Scheduler

variable {s t u : Scheduler} {judge : Judge} {judges : Set Judge} {q : Nat} {item : ItemRef}

/-- The two states differ at most in their journals and their contacts. -/
structure Alike (s t : Scheduler) : Prop where
  pool : t.pool = s.pool
  queues : t.queues = s.queues

namespace Alike

/-- Every state is like itself. -/
protected theorem refl (s : Scheduler) : Alike s s := ⟨rfl, rfl⟩

/-- Likeness goes both ways. -/
protected theorem symm (h : Alike s t) : Alike t s := ⟨h.pool.symm, h.queues.symm⟩

/-- Likeness is passed on. -/
protected theorem trans (h : Alike s t) (h' : Alike t u) : Alike s u :=
  ⟨h'.pool.trans h.pool, h'.queues.trans h.queues⟩

/-- States that are alike have the same queues. -/
theorem queue (h : Alike s t) (q : Nat) : t.queue q = s.queue q := by
  rw [Scheduler.queue, Scheduler.queue, h.queues]

/-- States that are alike have the same items. -/
theorem get? (h : Alike s t) (item : ItemRef) : t.get? item = s.get? item := by
  rw [Scheduler.get?, Scheduler.get?, h.queue]

/-- Noting an event changes nothing else. -/
theorem log (s : Scheduler) (e : Event) : Alike s (s.log e) := ⟨rfl, rfl⟩

/-- Noting several events changes nothing else. -/
theorem logAll (s : Scheduler) (es : List Event) : Alike s (s.logAll es) := by
  induction es generalizing s with
  | nil => exact .refl s
  | cons e es ih => exact (log s e).trans (ih _)

/-- Noting several contacts changes nothing else. -/
theorem records (s : Scheduler) (cs : List Contact) : Alike s (cs.foldl record s) := by
  induction cs generalizing s with
  | nil => exact .refl s
  | cons c cs ih =>
      have hrecord : Alike s (s.record c) := ⟨rfl, rfl⟩
      exact hrecord.trans (ih _)

end Alike

/-- A changed queue is found under its number if it is open, and the others stay as they are. -/
theorem queue_withQueue (s : Scheduler) (q : Nat) (f : Queue → Queue) (j : Nat) :
    (s.withQueue q f).queue j = if j = q ∧ q < s.queues.length then f (s.queue j) else s.queue j := by
  simp only [queue, withQueue, List.getD_eq_getElem?_getD, List.getElem?_modify]
  by_cases hj : j = q
  · subst hj
    by_cases hopen : j < s.queues.length
    · simp [hopen]
    · simp [hopen]
  · simp [hj, Ne.symm hj]

/-- A changed queue that is open. -/
theorem queue_withQueue_self (hq : q < s.queues.length) (f : Queue → Queue) :
    (s.withQueue q f).queue q = f (s.queue q) := by
  rw [queue_withQueue, if_pos ⟨rfl, hq⟩]

/-- Changing a queue opens none. -/
@[simp] theorem length_withQueue (s : Scheduler) (q : Nat) (f : Queue → Queue) :
    (s.withQueue q f).queues.length = s.queues.length :=
  List.length_modify ..

/-- A queue with an item is open. -/
theorem lt_of_get? {e : Entrant} (h : s.get? item = some e) : item.queue < s.queues.length := by
  by_contra hclosed
  have hnone : s.queue item.queue = .empty := List.getD_eq_default _ _ (Nat.le_of_not_lt hclosed)
  rw [get?, hnone] at h
  cases hid : item.id <;> rw [hid] at h <;> cases h

/-- A queue remembers the items that are found in it. -/
theorem mem_entrants_iff {e : Entrant} : e ∈ (s.queue q).entrants ↔ ∃ id, s.get? ⟨q, id⟩ = some e := by
  constructor
  · intro he
    obtain ⟨i, hi⟩ := List.mem_iff_getElem?.mp he
    exact ⟨i + 1, hi⟩
  · rintro ⟨id, he⟩
    cases id with
    | zero => cases he
    | succ id => exact List.mem_of_getElem? he

/-- A queue with a pending or building item is open. -/
theorem lt_of_mem {id : Nat} (h : id ∈ (s.queue q).pending ∨ id ∈ (s.queue q).building) :
    q < s.queues.length := by
  by_contra hclosed
  have hnone : s.queue q = .empty := List.getD_eq_default _ _ (Nat.le_of_not_lt hclosed)
  rw [hnone] at h
  simp [Queue.empty] at h

/-- An item that is pending in a queue is listed there. -/
theorem mem_of_isPendingIn (h : s.isPendingIn q item = true) :
    item.queue = q ∧ item.id ∈ (s.queue q).pending := by
  simp only [isPendingIn, Bool.and_eq_true, beq_iff_eq, List.contains_iff_mem] at h
  exact h.1

/-- An item that is building in a queue is listed there. -/
theorem mem_of_isBuildingIn (h : s.isBuildingIn q item = true) :
    item.queue = q ∧ item.id ∈ (s.queue q).building := by
  simpa only [isBuildingIn, Bool.and_eq_true, beq_iff_eq, List.contains_iff_mem] using h

/-- The queues and the pool of a state are orderly, and exactly the open queues hear of available nodes. -/
structure WellFormed (s : Scheduler) : Prop where
  queues : ∀ q, (s.queue q).Orderly
  pool : s.pool.Orderly
  subscribed : ∀ q, .queue q ∈ s.pool.subscribers ↔ q < s.queues.length

/-- The blocker answers this in a state like `s`. -/
def Says (judge : Judge) (s : Scheduler) (q : Nat) (item : ItemRef) (b : Blocker) (v : Verdict) : Prop :=
  ∃ t, Alike s t ∧ b.verdict judge t q item = v

/-- What the blockers of an item answer in states like `s`: all of them let it go, or one of them holds
it back or fails, after those before it let it go. -/
def Answered (judge : Judge) (s : Scheduler) (q : Nat) (item : ItemRef) (bs : List Blocker) :
    Verdict → Prop
  | .free => ∀ b ∈ bs, Says judge s q item b .free
  | v => ∃ before b after, bs = before ++ b :: after ∧ (∀ c ∈ before, Says judge s q item c .free) ∧
      Says judge s q item b v

/-- An idle node and a pending item that nothing holds back and whose label the node satisfies. -/
structure Eligible (judge : Judge) (s : Scheduler) (q : Nat) (n : Node) (e : Entrant) : Prop where
  registered : n ∈ s.pool.nodes
  idle : n.state = .idle
  known : s.get? ⟨q, e.item.id⟩ = some e
  pending : e.item.id ∈ (s.queue q).pending
  free : Answered judge s q ⟨q, e.item.id⟩ e.item.blockers .free
  meets : n.meets e.item.label = true

/-- An item of the queue ends, and the node of the name that it was given to is freed if it holds it. -/
def conclude (q : Nat) (item : ItemRef) (s : Scheduler) : Scheduler :=
  let s₁ := s.withQueue q (·.complete item.id)
  (((s.get? item).bind Entrant.node).map (s₁.releaseNode item.id)).getD s₁

/-- The ways in which a scheduler changes, if policies answer as these judges do. -/
inductive Effect (judges : Set Judge) (s : Scheduler) : Scheduler → Prop where
  | note {t : Scheduler} (h : Alike s t) : Effect judges s t
  | read (r : Registry) : Effect judges s (s.withPool fun p => { p with registry := r })
  | join {name : String} (labels : List String) (h : s.pool.find? name = none) :
      Effect judges s (s.withPool (·.add name labels))
  | leave (name : String) : Effect judges s (s.withPool (·.drop name))
  | turn {n : Node} {name : String} (state : NodeState) (h : s.pool.find? name = some n)
      (hfree : state = .idle → n.holds = none) :
      Effect judges s (s.withPool (·.update name fun n => { n with state := state }))
  | enter {q : Nat} {i : Item} (h : i.id = (s.queue q).nextId) : Effect judges s (s.withQueue q (·.add i))
  | assign {judge : Judge} {q : Nat} {n : Node} {e : Entrant} (hjudge : judge ∈ judges)
      (h : Eligible judge s q n e) : Effect judges s (s.assign q n e)
  | keep {item : ItemRef} {e : Entrant} {a : Assignment} (h : s.get? item = some e)
      (ha : e.assignment = some a) : Effect judges s (s.settle item (.kept a))
  | withdraw {q : Nat} {item : ItemRef} (h : s.isPendingIn q item = true) :
      Effect judges s (s.withQueue q (·.withdraw item.id))
  | renounce {item : ItemRef} {e : Entrant} (h : s.get? item = some e) (hstate : e.state = .cancelled) :
      Effect judges s (s.settle item .withdrawn)
  | start {q : Nat} {item : ItemRef} (h : s.isBuildingIn q item = true) :
      Effect judges s (s.withQueue q (·.start item.id))
  | complete {q : Nat} {item : ItemRef} (h : s.isBuildingIn q item = true) :
      Effect judges s (s.conclude q item)
  | openQueue (listeners : List Party) : Effect judges s (s.openQueue listeners)
  | listen (q : Nat) (p : Party) : Effect judges s (s.addListener q p)
  | subscribe (p : Party) : Effect judges s (s.addSubscriber p)
  | watch (p : Party) (item : ItemRef) : Effect judges s (s.watch p item)

/-- Any number of effects, one after the other. -/
abbrev Effects (judges : Set Judge) : Scheduler → Scheduler → Prop := Relation.ReflTransGen (Effect judges)

/-- What every effect preserves is preserved by all of them together. -/
theorem Effects.preserve {P : Scheduler → Prop} (hstep : ∀ {s t}, P s → Effect judges s t → P t)
    (h : Effects judges s t) (hs : P s) : P t := by
  induction h with
  | refl => exact hs
  | tail _ heffect ih => exact hstep ih heffect

/-- A newly opened queue is empty, and the others stay as they are. -/
theorem queue_openQueue (s : Scheduler) (listeners : List Party) (j : Nat) :
    (s.openQueue listeners).queue j =
      if j = s.queues.length then { Queue.empty with listeners := listeners } else s.queue j := by
  simp only [openQueue, withPool, queue, List.getD_eq_getElem?_getD]
  rcases Nat.lt_trichotomy j s.queues.length with hj | hj | hj
  · rw [List.getElem?_append_left hj, if_neg (by omega)]
  · simp [hj]
  · have hold : s.queues[j]? = none := List.getElem?_eq_none (Nat.le_of_lt hj)
    have hnew : (s.queues ++ [{ Queue.empty with listeners := listeners }])[j]? = none :=
      List.getElem?_eq_none (by simpa using Nat.succ_le_of_lt hj)
    rw [if_neg (by omega), hold, hnew]

/-- Settling a promise changes the promise, and notes that the watchers were told. -/
theorem settle_alike {e : Entrant} (h : s.get? item = some e) (p : Promise) :
    Alike (s.withQueue item.queue (·.update item.id fun e => { e with promise := p })) (s.settle item p) := by
  unfold settle
  rw [h]
  exact .records _ _

/-- Watching an item changes the item's watchers, if the item is known and its promise is open. -/
theorem watch_cases (s : Scheduler) (p : Party) (item : ItemRef) :
    Alike s (s.watch p item) ∨ ∃ e, s.get? item = some e ∧
      s.watch p item =
        s.withQueue item.queue (·.update item.id fun e => { e with watchers := e.watchers ++ [p] }) := by
  unfold watch
  cases h : s.get? item with
  | none => exact .inl (.refl s)
  | some e =>
      by_cases hsettled : e.isSettled = true
      · simp only [hsettled, if_true]
        exact .inl ⟨rfl, rfl⟩
      · exact .inr ⟨e, rfl, by simp [hsettled]⟩

/-- Settling a promise leaves the pool as it is. -/
theorem pool_settle (s : Scheduler) (item : ItemRef) (p : Promise) : (s.settle item p).pool = s.pool := by
  cases h : s.get? item with
  | none => rw [settle, h]
  | some e => exact (settle_alike h p).pool

/-- Watching an item leaves the pool as it is. -/
theorem pool_watch (s : Scheduler) (p : Party) (item : ItemRef) : (s.watch p item).pool = s.pool := by
  rcases watch_cases s p item with h | ⟨e, -, h⟩
  · exact h.pool
  · rw [h]
    rfl

/-- Freeing a node notes the change or leaves everything as it is. -/
theorem releaseNode_alike (s : Scheduler) (id : Nat) (name : String) :
    Alike (s.withPool (·.release name id)) (s.releaseNode id name) := by
  unfold releaseNode
  split
  case isTrue _ => exact .log _ _
  case isFalse h =>
    refine ⟨?_, rfl⟩
    simp [withPool, Pool.release, h]

/-- Ending an item completes it in its queue; in the pool, at most the node of the name that it was given
to is freed. -/
theorem conclude_alike (s : Scheduler) (q : Nat) (item : ItemRef) :
    Alike ((s.withQueue q (·.complete item.id)).withPool fun p =>
      (((s.get? item).bind Entrant.node).map (p.release · item.id)).getD p) (s.conclude q item) := by
  unfold conclude
  cases (s.get? item).bind Entrant.node with
  | none => exact .refl _
  | some name => exact releaseNode_alike _ _ _

/-- Giving an item to a node assigns it in its queue and leaves the other queues as they are. -/
theorem queue_assign (s : Scheduler) (q : Nat) (n : Node) (e : Entrant) (j : Nat) :
    (s.assign q n e).queue j =
      if j = q ∧ q < s.queues.length then
        (s.queue j).assign e.item.id ⟨n.name, n.serial, (s.queue q).nextRun e.item.task⟩
      else s.queue j :=
  queue_withQueue s q _ j

/-- Ending an item completes it in its queue and leaves the other queues as they are. -/
theorem queue_conclude (s : Scheduler) (q : Nat) (item : ItemRef) (j : Nat) :
    (s.conclude q item).queue j =
      if j = q ∧ q < s.queues.length then (s.queue j).complete item.id else s.queue j := by
  rw [(conclude_alike s q item).queue]
  exact queue_withQueue s q _ j

/-- What is never taken back: parties that hear of available nodes, open queues, and items. -/
structure Grows (s t : Scheduler) : Prop where
  subscribers : s.pool.subscribers <+: t.pool.subscribers
  queues : s.queues.length ≤ t.queues.length
  items : ∀ {item e}, s.get? item = some e → ∃ e', t.get? item = some e' ∧ e'.item = e.item

namespace Grows

/-- Nothing is taken back if nothing happens. -/
protected theorem refl (s : Scheduler) : Grows s s := ⟨List.prefix_rfl, Nat.le_refl _, fun he => ⟨_, he, rfl⟩⟩

/-- Nothing is taken back later on. -/
protected theorem trans (h : Grows s t) (h' : Grows t u) : Grows s u := by
  refine ⟨h.subscribers.trans h'.subscribers, Nat.le_trans h.queues h'.queues, fun he => ?_⟩
  obtain ⟨e', he', hitem⟩ := h.items he
  obtain ⟨e'', he'', hitem'⟩ := h'.items he'
  exact ⟨e'', he'', hitem'.trans hitem⟩

/-- Journals and contacts may change. -/
theorem alike (h : Alike s t) : Grows s t :=
  ⟨h.pool ▸ List.prefix_rfl, h.queues ▸ Nat.le_refl _, fun he => ⟨_, (h.get? _).trans he, rfl⟩⟩

/-- The nodes and the registry may change. -/
theorem withPool {f : Pool → Pool} (h : (f s.pool).subscribers = s.pool.subscribers) :
    Grows s (s.withPool f) :=
  ⟨h ▸ List.prefix_rfl, Nat.le_refl _, fun he => ⟨_, he, rfl⟩⟩

/-- A queue may change as long as it keeps its items. -/
theorem withQueue {f : Queue → Queue}
    (h : ∀ {id e}, (s.queue q).get? id = some e → ∃ e', (f (s.queue q)).get? id = some e' ∧ e'.item = e.item) :
    Grows s (s.withQueue q f) := by
  refine ⟨List.prefix_rfl, Nat.le_of_eq (length_withQueue ..).symm, fun {item e} he => ?_⟩
  rw [Scheduler.get?, queue_withQueue]
  split
  case isTrue hq => exact hq.1 ▸ h (hq.1 ▸ he)
  case isFalse => exact ⟨e, he, rfl⟩

/-- An item may change in all but what the work is. -/
theorem update (s : Scheduler) (q id : Nat) {f : Entrant → Entrant} (hf : ∀ e, (f e).item = e.item) :
    Grows s (s.withQueue q (·.update id f)) :=
  withQueue (Queue.get?_update_congr hf id)

/-- Every effect keeps what is never taken back. -/
theorem effect (h : Effect judges s t) : Grows s t := by
  cases h with
  | note h => exact alike h
  | read r => exact withPool rfl
  | join labels h => exact withPool rfl
  | leave name => exact withPool rfl
  | turn state h hfree => exact withPool rfl
  | @enter q i h =>
      refine withQueue fun {id e} he => ⟨e, ?_, rfl⟩
      rw [Queue.get?_add, if_neg, he]
      rintro rfl
      rw [Queue.get?_nextId] at he
      cases he
  | assign _ h =>
      refine .trans ?_ (alike (.log _ _))
      exact (withQueue (Queue.get?_update_congr (by intro _; rfl) _)).trans (withPool rfl)
  | keep h ha => exact (update s _ _ (by intro _; rfl)).trans (alike (settle_alike h _))
  | withdraw h => exact withQueue (Queue.get?_update_congr (by intro _; rfl) _)
  | renounce h _ => exact (update s _ _ (by intro _; rfl)).trans (alike (settle_alike h _))
  | start h => exact update s _ _ (by intro _; rfl)
  | @complete q item h =>
      have hcompleted : Grows s (s.withQueue q (·.complete item.id)) :=
        withQueue (Queue.get?_update_congr (by intro _; rfl) _)
      apply Grows.trans _ (alike (conclude_alike s q item))
      apply hcompleted.trans
      apply withPool
      cases (s.get? item).bind Entrant.node with
      | none => rfl
      | some name => exact Pool.release_subscribers ..
  | openQueue listeners =>
      refine ⟨List.prefix_append _ _, ?_, fun {item e} he => ⟨e, ?_, rfl⟩⟩
      · simp [openQueue, Scheduler.withPool]
      · rw [get?, queue_openQueue, if_neg (Nat.ne_of_lt (lt_of_get? he))]
        exact he
  | listen q p => exact withQueue fun he => ⟨_, (Queue.get?_congr rfl _).trans he, rfl⟩
  | subscribe p => exact ⟨List.prefix_append _ _, Nat.le_refl _, fun he => ⟨_, he, rfl⟩⟩
  | watch p item =>
      rcases watch_cases s p item with h | ⟨e, _, h⟩
      · exact alike h
      · exact h ▸ update s _ _ (by intro _; rfl)

/-- Any number of effects keep what is never taken back. -/
theorem effects (h : Effects judges s t) : Grows s t :=
  h.preserve (fun hs heffect => hs.trans (effect heffect)) (.refl s)

end Grows

namespace WellFormed

/-- Nothing is registered and nothing is queued. -/
protected theorem empty : Scheduler.empty.WellFormed :=
  ⟨fun _ => Queue.Orderly.empty, Pool.Orderly.empty, fun _ => by simp [empty, Pool.empty]⟩

/-- States that are alike are well formed together. -/
theorem alike (hs : s.WellFormed) (h : Alike s t) : t.WellFormed :=
  ⟨fun q => h.queue q ▸ hs.queues q, h.pool ▸ hs.pool, by rw [h.pool, h.queues]; exact hs.subscribed⟩

/-- An open queue may change as long as it stays orderly. -/
theorem withQueue (hs : s.WellFormed) {f : Queue → Queue}
    (h : q < s.queues.length → (f (s.queue q)).Orderly) : (s.withQueue q f).WellFormed := by
  refine ⟨fun j => ?_, hs.pool, by rw [length_withQueue]; exact hs.subscribed⟩
  rw [queue_withQueue]
  split
  case isTrue hj =>
    obtain ⟨rfl, hq⟩ := hj
    exact h hq
  case isFalse => exact hs.queues j

/-- The nodes and the registry may change as long as the pool stays orderly. -/
theorem withPool (hs : s.WellFormed) {f : Pool → Pool} (h : (f s.pool).Orderly)
    (hsubscribers : (f s.pool).subscribers = s.pool.subscribers) : (s.withPool f).WellFormed :=
  ⟨hs.queues, h, fun q => (congrArg (.queue q ∈ ·) hsubscribers).to_iff.trans (hs.subscribed q)⟩

/-- The promise and the watchers of an item may change. -/
theorem update (hs : s.WellFormed) {e : Entrant} (he : s.get? item = some e) {f : Entrant → Entrant}
    (hitem : (f e).item = e.item) (hstate : (f e).state = e.state) :
    (s.withQueue item.queue (·.update item.id f)).WellFormed :=
  hs.withQueue fun _ => (hs.queues _).update he hitem hstate

/-- A pending item may be given to a node. -/
theorem assign (hs : s.WellFormed) (n : Node) {e : Entrant} (hpending : e.item.id ∈ (s.queue q).pending) :
    (s.assign q n e).WellFormed := by
  refine .alike ?_ (.log _ _)
  exact (hs.withQueue fun _ => (hs.queues _).assign hpending _).withPool (hs.pool.occupy _ _) rfl

/-- Every effect leaves a well-formed state behind. -/
theorem effect (hs : s.WellFormed) (h : Effect judges s t) : t.WellFormed := by
  cases h with
  | note h => exact hs.alike h
  | read r => exact hs.withPool (hs.pool.congr rfl rfl) rfl
  | join labels h => exact hs.withPool (hs.pool.add h labels) rfl
  | leave name => exact hs.withPool (hs.pool.drop name) rfl
  | turn state h hfree =>
      refine hs.withPool (hs.pool.update (fun _ => rfl) (fun _ => rfl) ?_) rfl
      intro m hm hname hidle
      obtain ⟨hn, hnamed⟩ := Pool.mem_of_find? h
      exact hs.pool.eq_of_name hm hn (hname.trans hnamed.symm) ▸ hfree hidle
  | enter h => exact hs.withQueue fun _ => (hs.queues _).add h
  | assign _ h => exact hs.assign _ h.pending
  | keep h ha => exact (hs.update h rfl rfl).alike (settle_alike h _)
  | withdraw h => exact hs.withQueue fun _ => (hs.queues _).withdraw (mem_of_isPendingIn h).2
  | renounce h _ => exact (hs.update h rfl rfl).alike (settle_alike h _)
  | start h => exact hs.withQueue fun _ => (hs.queues _).start (mem_of_isBuildingIn h).2
  | @complete q item h =>
      refine .alike ?_ (conclude_alike s q item)
      have hcompleted : (s.withQueue q (·.complete item.id)).WellFormed :=
        hs.withQueue fun _ => (hs.queues q).complete (mem_of_isBuildingIn h).2
      cases (s.get? item).bind Entrant.node with
      | none => exact hcompleted.withPool hs.pool rfl
      | some name => exact hcompleted.withPool (hs.pool.release name item.id) (Pool.release_subscribers ..)
  | openQueue listeners =>
      refine ⟨fun j => ?_, hs.pool.congr rfl rfl, fun j => ?_⟩
      · rw [queue_openQueue]
        split
        case isTrue => exact Queue.Orderly.empty.congr rfl rfl rfl
        case isFalse => exact hs.queues j
      · have hold := hs.subscribed j
        simp only [Scheduler.openQueue, Scheduler.withPool, List.mem_append, List.mem_singleton,
          Subscriber.queue.injEq, List.length_append, List.length_singleton, hold]
        omega
  | listen q p => exact hs.withQueue fun _ => (hs.queues _).congr rfl rfl rfl
  | subscribe p =>
      refine ⟨hs.queues, hs.pool.congr rfl rfl, fun j => ?_⟩
      have hold := hs.subscribed j
      simpa only [addSubscriber, Scheduler.withPool, List.mem_append, List.mem_singleton, reduceCtorEq,
        or_false] using hold
  | watch p item =>
      rcases watch_cases s p item with h | ⟨e, he, h⟩
      · exact hs.alike h
      · exact h ▸ hs.update he rfl rfl

/-- Any number of effects leaves a well-formed state behind. -/
theorem effects (hs : s.WellFormed) (h : Effects judges s t) : t.WellFormed :=
  h.preserve effect hs

end WellFormed

end Scheduler

end LabelScheduler
