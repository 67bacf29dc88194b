import LabelScheduler.Proofs.Scheduler.Change
import LabelScheduler.Proofs.Scheduler.Placement
import LabelScheduler.Proofs.Scheduler.Unblocked

/-!
# The lifecycle of an item

An item is pending until it is assigned or cancelled, an assigned item may be reported running, and it completes
once. Its assignment and its promise are written by other operations than its state, and at other moments. Whenever
a party has its say or an operation has ended, the three agree: a pending item has neither an assignment nor a
settled promise, a cancelled one never had an assignment and its promise is withdrawn, and every other item has the
assignment that it got when it was assigned, with the promise of this assignment kept.
-/

namespace LabelScheduler

open Scheduler

namespace ItemState

/-- An item goes from one state to the next. -/
inductive Next : ItemState → ItemState → Prop where
  | assign : Next .pending .assigned
  | start : Next .assigned .running
  | complete : Next .assigned .completed
  | finish : Next .running .completed
  | cancel : Next .pending .cancelled

/-- An item goes from one state to another over any number of steps. -/
abbrev Leads : ItemState → ItemState → Prop := Relation.ReflTransGen Next

/-- The item is done with. -/
def isFinal : ItemState → Bool
  | .completed | .cancelled => true
  | _ => false

variable {a b : ItemState}

/-- An item that is done with stays as it is. -/
theorem Leads.of_final (h : Leads a b) (hfinal : a.isFinal = true) : b = a := by
  induction h with
  | refl => rfl
  | tail _ hnext ih =>
      subst ih
      cases hnext <;> cases hfinal

/-- No item becomes pending again. -/
theorem Leads.ne_pending (h : Leads a b) (ha : a ≠ .pending) : b ≠ .pending := by
  induction h with
  | refl => exact ha
  | tail _ hnext _ => cases hnext <;> nofun

end ItemState

namespace Entrant

variable {e e' e'' : Entrant} {reporting : Prop}

/-- What a change does to an item; starts and completions are reported where this is said. -/
inductive Fate (reporting : Prop) (e : Entrant) : Entrant → Prop where
  | spared (watchers : List Party) : Fate reporting e { e with watchers := watchers }
  | assigned (a : Assignment) (h : e.state = .pending) :
      Fate reporting e { e with state := .assigned, assignment := some a, promise := .kept a }
  | cancelled (h : e.state = .pending) : Fate reporting e { e with state := .cancelled, promise := .withdrawn }
  | started (hreporting : reporting) (h : e.state.isBuilding = true) : Fate reporting e { e with state := .running }
  | completed (hreporting : reporting) (h : e.state.isBuilding = true) :
      Fate reporting e { e with state := .completed }

/-- Nothing happens to an item. -/
protected theorem Fate.refl (e : Entrant) : Fate reporting e e := .spared e.watchers

/-- How an item may be later on: the work is the same, its state has moved on at most, and the assignment is the same
unless the item was pending. -/
structure Evolves (e e' : Entrant) : Prop where
  item : e'.item = e.item
  state : e.state.Leads e'.state
  assignment : e.state ≠ .pending → e'.assignment = e.assignment

/-- An item may stay as it is. -/
protected theorem Evolves.refl (e : Entrant) : Evolves e e := ⟨rfl, .refl, fun _ => rfl⟩

/-- An item may move on again. -/
protected theorem Evolves.trans (h : Evolves e e') (h' : Evolves e' e'') : Evolves e e'' where
  item := h'.item.trans h.item
  state := h.state.trans h'.state
  assignment hne := (h'.assignment (h.state.ne_pending hne)).trans (h.assignment hne)

/-- A building item leads to a completed one. -/
theorem leads_completed (h : e.state.isBuilding = true) : e.state.Leads .completed := by
  cases hstate : e.state with
  | assigned => exact .single .complete
  | running => exact .single .finish
  | completed => exact .refl
  | pending | cancelled => rw [hstate] at h; cases h

/-- A building item leads to a running one. -/
theorem leads_running (h : e.state.isBuilding = true) : e.state.Leads .running := by
  cases hstate : e.state with
  | assigned => exact .single .start
  | running => exact .refl
  | pending | completed | cancelled => rw [hstate] at h; cases h

/-- Every change moves an item on at most. -/
theorem Fate.evolves (h : Fate reporting e e') : Evolves e e' := by
  cases h with
  | spared watchers => exact ⟨rfl, .refl, fun _ => rfl⟩
  | assigned a h => exact ⟨rfl, h ▸ .single .assign, fun hne => absurd h hne⟩
  | cancelled h => exact ⟨rfl, h ▸ .single .cancel, fun hne => absurd h hne⟩
  | started hreporting h => exact ⟨rfl, leads_running h, fun _ => rfl⟩
  | completed hreporting h => exact ⟨rfl, leads_completed h, fun _ => rfl⟩

/-- State, assignment and promise of an item agree. -/
inductive Consistent (e : Entrant) : Prop where
  | waits (hstate : e.state = .pending) (ha : e.assignment = none) (hp : e.promise = .open)
  | given (a : Assignment) (hstate : e.state ≠ .pending ∧ e.state ≠ .cancelled) (ha : e.assignment = some a)
      (hp : e.promise = .kept a)
  | withdrawn (hstate : e.state = .cancelled) (ha : e.assignment = none) (hp : e.promise = .withdrawn)

namespace Consistent

/-- A building item has an assignment whose promise is kept. -/
theorem of_building (h : e.Consistent) (hb : e.state.isBuilding = true) :
    ∃ a, e.assignment = some a ∧ e.promise = .kept a := by
  cases h with
  | waits hstate _ _ => rw [hstate] at hb; cases hb
  | given a _ ha hp => exact ⟨a, ha, hp⟩
  | withdrawn hstate _ _ => rw [hstate] at hb; cases hb

/-- Every change keeps state, assignment and promise in agreement. -/
theorem fate (h : e.Consistent) (hfate : Fate reporting e e') : e'.Consistent := by
  cases hfate with
  | spared watchers =>
      cases h with
      | waits hstate ha hp => exact .waits hstate ha hp
      | given a hstate ha hp => exact .given a hstate ha hp
      | withdrawn hstate ha hp => exact .withdrawn hstate ha hp
  | assigned a _ => exact .given a ⟨nofun, nofun⟩ rfl rfl
  | cancelled hpending =>
      cases h with
      | waits _ ha _ => exact .withdrawn rfl ha rfl
      | given a hstate _ _ => exact absurd hpending hstate.1
      | withdrawn hstate _ _ => rw [hpending] at hstate; cases hstate
  | started _ hb =>
      obtain ⟨a, ha, hp⟩ := h.of_building hb
      exact .given a ⟨nofun, nofun⟩ ha hp
  | completed _ hb =>
      obtain ⟨a, ha, hp⟩ := h.of_building hb
      exact .given a ⟨nofun, nofun⟩ ha hp

end Consistent

end Entrant

namespace Scheduler

variable {reported : Set Nat} {judge : Judge} {judges : Set Judge} {s t : Scheduler} {q : Nat} {item : ItemRef}
  {e e' : Entrant} {a : Assignment}

/-- After a round of matching an item is assigned, with its promise kept, or it is as it was. -/
theorem get?_published (hs : s.WellFormed) (judge : Judge) (q : Nat) (item : ItemRef) :
    (item.queue = q ∧ item.id ∈ (matchItems judge q s).made ∧ ∃ e a, s.get? item = some e ∧ e.state = .pending ∧
      (s.published judge q).get? item =
        some { e with state := .assigned, assignment := some a, promise := .kept a }) ∨
    ((item.queue = q → item.id ∉ (matchItems judge q s).made) ∧ (s.published judge q).get? item = s.get? item) := by
  have hplaced := matchItems_placed hs judge q
  have hpromised := published_promised judge q s
  by_cases hmade : item.queue = q ∧ item.id ∈ (matchItems judge q s).made
  · obtain ⟨rfl, hid⟩ := hmade
    obtain ⟨e, a, he, hpending, hassigned⟩ := hplaced.assigned item.id hid
    exact .inl ⟨rfl, hid, e, a, he, hpending, hpromised.kept item.id hid _ a hassigned rfl⟩
  · have hother : item.queue = q → item.id ∉ (matchItems judge q s).made := fun hq hid => hmade ⟨hq, hid⟩
    exact .inr ⟨hother, (hpromised.others item hother).trans (hplaced.others item hother)⟩

/-- If one item of a queue changes, it is found changed, and the others are as they were. -/
theorem get?_of_update {f : Queue → Queue} {g : Entrant → Entrant} (he : s.get? item = some e)
    (hf : ∀ r id, (f r).get? id = (r.update item.id g).get? id) (j : ItemRef) :
    (s.withQueue item.queue f).get? j = if j = item then some (g e) else s.get? j := by
  have hpos : 0 < item.id := Queue.pos_of_get? he
  rw [get?, queue_withQueue]
  by_cases hj : j = item
  · subst hj
    rw [if_pos ⟨rfl, lt_of_get? he⟩, if_pos rfl, hf]
    exact Queue.get?_update_self he g
  · rw [if_neg hj]
    split
    case isTrue hq =>
      have hid : j.id ≠ item.id := fun hid => hj (by cases j; cases item; simp_all)
      rw [hf, Queue.get?_update hpos, if_neg hid, get?]
    case isFalse => rfl

/-- Where an item after a change comes from: it has just entered, or something happened to an item from before it. -/
inductive Descent (reported : Set Nat) (s : Scheduler) (item : ItemRef) (e' : Entrant) : Prop where
  | entered (i : Item) (hnew : s.get? item = none) (he' : e' = .fresh i)
  | stayed {e : Entrant} (he : s.get? item = some e) (hfate : e.Fate (item.queue ∈ reported) e')

namespace Descent

/-- An item that is as it was. -/
theorem same (he' : s.get? item = some e') : Descent reported s item e' := .stayed he' (.refl e')

/-- A queue may change as long as its items come from those that it had. -/
theorem withQueue {f : Queue → Queue}
    (hf : ∀ id e', (f (s.queue q)).get? id = some e' →
      ∃ e, (s.queue q).get? id = some e ∧ e.Fate (q ∈ reported) e')
    (he' : (s.withQueue q f).get? item = some e') : Descent reported s item e' := by
  rw [get?, queue_withQueue] at he'
  split at he'
  case isTrue hq =>
    obtain ⟨rfl, -⟩ := hq
    obtain ⟨e, he, hfate⟩ := hf item.id e' he'
    exact .stayed he hfate
  case isFalse => exact same he'

/-- One item may change if this is something that happens to items. -/
theorem updated {i : ItemRef} {f : Queue → Queue} {g : Entrant → Entrant} (he : s.get? i = some e)
    (hf : ∀ r id, (f r).get? id = (r.update i.id g).get? id) (hfate : e.Fate (i.queue ∈ reported) (g e))
    (he' : (s.withQueue i.queue f).get? item = some e') : Descent reported s item e' := by
  rw [get?_of_update he hf] at he'
  split at he'
  case isTrue hitem =>
    obtain rfl := Option.some.inj he'
    exact .stayed (hitem ▸ he) (hitem ▸ hfate)
  case isFalse => exact same he'

/-- An item may enter. -/
theorem enter {i : Item} (he' : (s.withQueue q (·.add i)).get? item = some e') : Descent reported s item e' := by
  rw [get?, queue_withQueue] at he'
  split at he'
  case isTrue =>
    rw [Queue.get?_add] at he'
    split at he'
    case isTrue hid =>
      have hnew : s.get? item = none := by rw [get?, hid, Queue.get?_nextId]
      exact .entered i hnew (Option.some.inj he').symm
    case isFalse => exact same he'
  case isFalse => exact same he'

/-- A pending item may be withdrawn together with its promise. -/
theorem cancel {i : ItemRef} (hs : s.WellFormed) (h : s.isPendingIn q i = true)
    (he' : ((s.withQueue q (·.withdraw i.id)).settle i .withdrawn).get? item = some e') :
    Descent reported s item e' := by
  obtain ⟨rfl, hmem⟩ := mem_of_isPendingIn h
  obtain ⟨e, he⟩ := (hs.queues i.queue).known (.inl hmem)
  have hwithdrawn (j : ItemRef) : (s.withQueue i.queue (·.withdraw i.id)).get? j =
      if j = i then some { e with state := .cancelled } else s.get? j := by
    refine get?_of_update (g := fun e => { e with state := .cancelled }) he ?_ j
    exact fun _ _ => Queue.get?_congr rfl _
  rw [get?_settle ((hwithdrawn i).trans (if_pos rfl)), hwithdrawn] at he'
  split at he'
  case isTrue hitem =>
    obtain rfl := Option.some.inj he'
    exact .stayed (e := e) (hitem ▸ he) (.cancelled (((hs.queues i.queue).pending_iff he).mp hmem))
  case isFalse => exact same he'

end Descent

/-- Every item after a change comes from one before it, or has just entered. -/
theorem Change.descent (hs : s.WellFormed) (h : Change reported s t) (he' : t.get? item = some e') :
    Descent reported s item e' := by
  cases h with
  | note h => exact .same ((h.get? item).symm.trans he')
  | read r => exact .same he'
  | join labels h => exact .same he'
  | leave name => exact .same he'
  | turn state h hfree => exact .same he'
  | enter h => exact .enter he'
  | matched judge q =>
      rcases get?_published hs judge q item with ⟨-, -, e, a, he, hpending, hassigned⟩ | ⟨-, hsame⟩
      · exact .stayed he (Option.some.inj (hassigned.symm.trans he') ▸ .assigned a hpending)
      · exact .same (hsame.symm.trans he')
  | cancel h => exact .cancel hs h he'
  | @start q i hq h =>
      obtain ⟨rfl, hmem⟩ := mem_of_isBuildingIn h
      obtain ⟨e, he⟩ := (hs.queues i.queue).known (.inr hmem)
      exact .updated he (fun _ _ => rfl) (.started hq (((hs.queues i.queue).building_iff he).mp hmem)) he'
  | @complete q i hq h =>
      obtain ⟨rfl, hmem⟩ := mem_of_isBuildingIn h
      obtain ⟨e, he⟩ := (hs.queues i.queue).known (.inr hmem)
      rw [(conclude_alike s i.queue i).get?] at he'
      have hcompleted : e.Fate (i.queue ∈ reported) { e with state := .completed } :=
        .completed hq (((hs.queues i.queue).building_iff he).mp hmem)
      refine .updated (f := (·.complete i.id)) (g := fun e => { e with state := .completed }) he ?_ hcompleted he'
      exact fun _ _ => Queue.get?_congr rfl _
  | openQueue listeners =>
      rw [get?, queue_openQueue] at he'
      split at he'
      case isTrue => cases hid : item.id <;> rw [hid] at he' <;> cases he'
      case isFalse => exact .same he'
  | listen q p => exact .withQueue (fun id e' he' => ⟨e', (Queue.get?_congr rfl id).symm.trans he', .refl e'⟩) he'
  | subscribe p => exact .same he'
  | watch p i =>
      rcases watch_cases s p i with h | ⟨e, he, h⟩
      · exact .same ((h.get? item).symm.trans he')
      · rw [h] at he'
        exact .updated he (fun _ _ => rfl) (.spared _) he'

/-- Every item from before a change is there after it, and one of these things has happened to it. -/
theorem Change.fate (hs : s.WellFormed) (h : Change reported s t) (he : s.get? item = some e) :
    ∃ e', t.get? item = some e' ∧ e.Fate (item.queue ∈ reported) e' := by
  obtain ⟨e', he', -⟩ := (Grows.effects (h.effects hs)).items he
  refine ⟨e', he', ?_⟩
  cases h.descent hs he' with
  | entered i hnew _ => exact nomatch hnew.symm.trans he
  | stayed hold hfate => exact Option.some.inj (hold.symm.trans he) ▸ hfate

/-- Every item moves on at most while changes happen. -/
theorem Changes.evolves (hs : s.WellFormed) (h : Changes reported s t) (he : s.get? item = some e) :
    ∃ e', t.get? item = some e' ∧ e.Evolves e' := by
  refine h.preserve (P := fun u => ∃ e', u.get? item = some e' ∧ e.Evolves e') (fun hu hP hchange => ?_) hs
    ⟨e, he, .refl e⟩
  obtain ⟨e', he', hevolves⟩ := hP
  obtain ⟨e'', he'', hfate⟩ := hchange.fate hu he'
  exact ⟨e'', he'', hevolves.trans hfate.evolves⟩

/-- State, assignment and promise of every item agree. -/
def Consistent (s : Scheduler) : Prop := ∀ item e, s.get? item = some e → e.Consistent

/-- Every change keeps it so. -/
theorem Consistent.change (hs : s.WellFormed) (h : s.Consistent) (hst : Change reported s t) : t.Consistent := by
  intro item e' he'
  cases hst.descent hs he' with
  | entered i _ hfresh => exact hfresh ▸ .waits rfl rfl rfl
  | stayed he hfate => exact (h item _ he).fate hfate

/-- Any number of changes keep it so. -/
theorem Consistent.changes (hs : s.WellFormed) (h : s.Consistent) (hst : Changes reported s t) : t.Consistent :=
  hst.preserve (fun hs h hchange => h.change hs hchange) hs h

/-- The item is pending and the node is idle and satisfies its label, and the item is assigned to it with a run of
its task. -/
structure Matches (s : Scheduler) (item : ItemRef) (e : Entrant) (n : Node) (a : Assignment) : Prop where
  known : s.get? item = some e
  pending : e.state = .pending
  registered : n ∈ s.pool.nodes
  idle : n.state = .idle
  meets : n.meets e.item.label = true
  node : a.node = n.name ∧ a.serial = n.serial
  task : a.run.task = e.item.task
  assigned : (s.assign item.queue n e).get? item = some { e with state := .assigned, assignment := some a }

/-- An item that is eligible for a node is assigned to it like this. -/
theorem Eligible.matches (hs : s.WellFormed) {n : Node} (h : Eligible judge s item.queue n e)
    (hid : e.item.id = item.id) :
    s.Matches item e n ⟨n.name, n.serial, (s.queue item.queue).nextRun e.item.task⟩ := by
  have hitem : (⟨item.queue, e.item.id⟩ : ItemRef) = item := by rw [hid]
  have hknown := hitem ▸ h.known
  obtain ⟨e₀, a, he₀, hpending, hassigned⟩ := (Placed.single hs h).assigned e.item.id List.mem_cons_self
  rw [hitem] at he₀ hassigned
  obtain rfl := Option.some.inj (hknown.symm.trans he₀)
  have ha : a = ⟨n.name, n.serial, (s.queue item.queue).nextRun e.item.task⟩ := by
    rcases h.get?_assign hassigned with ⟨-, -, ha⟩ | ⟨hne, -⟩
    · exact Option.some.inj ha
    · exact absurd hitem.symm hne
  exact
    { known := hknown
      pending := hpending
      registered := h.registered
      idle := h.idle
      meets := h.meets
      node := ⟨rfl, rfl⟩
      task := rfl
      assigned := ha ▸ hassigned }

/-- Every assignment was made at a moment at which item and node matched. -/
theorem Effects.matches (h : Effects judges .empty t) (he' : t.get? item = some e') (ha : e'.assignment = some a) :
    ∃ u e n, Effects judges .empty u ∧ u.Matches item e n a ∧ e.item = e'.item ∧
      Effects judges (u.assign item.queue n e) t := by
  induction h generalizing e' with
  | refl => exact absurd (lt_of_get? he') (Nat.not_lt_zero _)
  | @tail u t hu hut ih =>
      have hwell := WellFormed.empty.effects hu
      cases hut.origin hwell he' with
      | entered _ hnone => exact nomatch hnone.symm.trans ha
      | stayed he hstays =>
          obtain ⟨v, e, n, hv, hmatches, hitem, hafter⟩ := ih he (hstays.assignment ▸ ha)
          exact ⟨v, e, n, hv, hmatches, hitem.trans hstays.item.symm, hafter.tail hut⟩
      | @assigned judge n e _ hfit hid ht hitem hassigned =>
          obtain rfl := Option.some.inj (ha.symm.trans hassigned)
          exact ⟨u, e, n, hu, hfit.matches hwell hid, hitem.symm, ht ▸ .refl⟩

/-- An item that is not pending in the queue is not cancelled, and only that is noted. -/
theorem cancel_of_not_pending (h : s.isPendingIn q item = false) (judge : Judge) :
    s.cancel judge q item = .done (s.log (.itemCancelled item.id false)) (.ok false) := by
  rw [cancel, h]
  rfl

/-- An item that is pending in the queue is cancelled before its queue is matched again. -/
theorem cancel_of_pending (h : s.isPendingIn q item = true) (judge : Judge) :
    ∃ t e, Changes Set.univ s t ∧ t.get? item = some e ∧ e.state = .cancelled ∧
      (s.cancel judge q item).Advances Set.univ t := by
  obtain ⟨e, he, hstate⟩ := get?_of_withdraw h
  have hlogged : ((s.withQueue q (·.withdraw item.id)).log (.itemCancelled item.id true)).get? item = some e := he
  refine ⟨_, { e with promise := .withdrawn }, cancelled_changes h (.itemCancelled item.id true), ?_, hstate, ?_⟩
  · rw [get?_settle hlogged, if_pos rfl]
  · rw [cancel, if_pos h]
    exact (maintain_advances judge q _).returning _

end Scheduler

namespace Config

/-- An operation that is asked for now is begun, and it will return with this answer. -/
def Grants (c : Config) (judge : Judge) (r : Request) (answer : Answer) : Prop :=
  r.isOpenIn c.state = true ∧ ∃ moves t, Returns c.waiting (c.take (.ask judge r)) moves t (.ok answer)

/-- In every state of a run, state, assignment and promise of every item agree. -/
theorem run_consistent (moves : List Move) : (run moves).state.Consistent := by
  have hempty : Scheduler.empty.Consistent := fun item e he => absurd (lt_of_get? he) (Nat.not_lt_zero _)
  exact hempty.changes .empty (run_changes moves)

/-- Every item moves on at most in the course of a run. -/
theorem run_evolves {earlier : List Move} (later : List Move) {item : ItemRef} {e : Entrant}
    (he : (run earlier).state.get? item = some e) :
    ∃ e', (run (earlier ++ later)).state.get? item = some e' ∧ e.Evolves e' :=
  (run_append_changes earlier later).evolves (run_wellFormed earlier) he

/-- An item that a cancellation says it has cancelled is cancelled from when the cancellation was asked for. -/
theorem Grants.cancelled {earlier : List Move} {judge : Judge} {q : Nat} {item : ItemRef}
    (h : (run earlier).Grants judge (.cancel q item) (.flag true)) (rest : List Move) :
    ∃ e, (run (earlier ++ .ask judge (.cancel q item) :: rest)).state.get? item = some e ∧ e.state = .cancelled := by
  obtain ⟨hopen, during, t, hreturn⟩ := h
  obtain ⟨xs, hcourse⟩ := run_course hopen hreturn
  cases hpending : (run earlier).state.isPendingIn q item with
  | false =>
      rw [Request.perform, cancel_of_not_pending hpending] at hcourse
      cases hcourse
  | true =>
      obtain ⟨u, e, hsu, he, hstate, hadvances⟩ := cancel_of_pending hpending judge
      have hwell : u.WellFormed := (run_wellFormed earlier).effects (hsu.effects (run_wellFormed earlier))
      have hasked : run (earlier ++ [.ask judge (.cancel q item)]) =
          enter (run earlier).waiting ((Request.cancel q item).perform judge (run earlier).state) := by
        rw [run, List.foldl_append, ← run, List.foldl_cons, List.foldl_nil, take, if_pos hopen]
      have hchanges : Changes Set.univ u (run (earlier ++ [.ask judge (.cancel q item)])).state :=
        hasked ▸ enter_changes (hadvances.map _)
      obtain ⟨e', he', hevolves⟩ := hchanges.evolves hwell he
      obtain ⟨e'', he'', hevolves'⟩ := run_evolves rest he'
      rw [List.append_assoc] at he''
      refine ⟨e'', he'', ?_⟩
      rw [← hstate]
      exact (hevolves.trans hevolves').state.of_final (by rw [hstate]; rfl)

end Config

end LabelScheduler
