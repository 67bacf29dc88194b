import LabelScheduler.Proofs.Scheduler.Effect

/-!
# Nothing is assigned that is held back

An item becomes assigned by one effect alone, and that effect has a guard: in the very state in which the item
is assigned, all its blockers let it go. Where no judge is heard, nothing is assigned. If all items of a task wait
for runs of the task to end, then none of them is assigned while another one is building, and there is never more
than one run of the task.
-/

namespace LabelScheduler

/-- The work and the assignment are the same, and the item is building only if it was. -/
structure Entrant.Stays (e e' : Entrant) : Prop where
  item : e'.item = e.item
  assignment : e'.assignment = e.assignment
  building : e'.state.isBuilding = true → e.state.isBuilding = true

/-- Nothing happens to an item. -/
protected theorem Entrant.Stays.refl (e : Entrant) : e.Stays e := ⟨rfl, rfl, id⟩

/-- If one item changes in none of these, then no item does. -/
theorem Queue.stays_of_update {q r : Queue} {id : Nat} {f : Entrant → Entrant}
    (hentrants : r.entrants = q.entrants)
    (hid : 0 < id) (hf : ∀ e, q.get? id = some e → e.Stays (f e)) (j : Nat) (e' : Entrant)
    (he' : (r.update id f).get? j = some e') : ∃ e, q.get? j = some e ∧ e.Stays e' := by
  obtain ⟨e, he, rfl⟩ := (get?_update_eq_some hid).mp he'
  rw [get?_congr hentrants] at he
  refine ⟨e, he, ?_⟩
  split
  case isTrue hj => exact hf e (hj ▸ he)
  case isFalse => exact .refl e

namespace Scheduler

variable {judge : Judge} {judges : Set Judge} {s t : Scheduler} {q : Nat} {item : ItemRef} {e e' : Entrant}
  {a : Assignment}

/-- Every item was there before, and none has been assigned. -/
def Passive (s t : Scheduler) : Prop :=
  ∀ item e', t.get? item = some e' → ∃ e, s.get? item = some e ∧ e.Stays e'

namespace Passive

/-- Journals and contacts may change. -/
theorem alike (h : Alike s t) : Passive s t :=
  fun item e' he' => ⟨e', (h.get? item).symm.trans he', .refl e'⟩

/-- The pool may change. -/
theorem withPool (s : Scheduler) (f : Pool → Pool) : Passive s (s.withPool f) :=
  fun _ e' he' => ⟨e', he', .refl e'⟩

/-- One thing after the other. -/
protected theorem trans {u : Scheduler} (h : Passive s t) (h' : Passive t u) : Passive s u := by
  intro item e'' he''
  obtain ⟨e', he', hstays'⟩ := h' item e'' he''
  obtain ⟨e, he, hstays⟩ := h item e' he'
  exact ⟨e, he, hstays'.item.trans hstays.item, hstays'.assignment.trans hstays.assignment,
    fun hb => hstays.building (hstays'.building hb)⟩

/-- A queue may change as long as its items stay as they are. -/
theorem withQueue {f : Queue → Queue}
    (hf : ∀ id e', (f (s.queue q)).get? id = some e' → ∃ e, (s.queue q).get? id = some e ∧ e.Stays e') :
    Passive s (s.withQueue q f) := by
  intro item e' he'
  rw [get?, queue_withQueue] at he'
  split at he'
  case isTrue hq =>
    rw [hq.1] at he'
    rw [get?, hq.1]
    exact hf item.id e' he'
  case isFalse => exact ⟨e', he', .refl e'⟩

/-- An item may change in its promise and its watchers. -/
theorem update (he : s.get? item = some e) {f : Entrant → Entrant} (hf : ∀ e : Entrant, e.Stays (f e)) :
    Passive s (s.withQueue item.queue (·.update item.id f)) :=
  withQueue (Queue.stays_of_update rfl (Queue.pos_of_get? he) fun e _ => hf e)

/-- An item that is building may end. -/
theorem conclude (hs : s.WellFormed) (h : s.isBuildingIn q item = true) : Passive s (s.conclude q item) := by
  obtain ⟨e, he⟩ := (hs.queues q).known (.inr (mem_of_isBuildingIn h).2)
  have hcompleted : Passive s (s.withQueue q (·.complete item.id)) := by
    apply Passive.withQueue
    exact Queue.stays_of_update rfl (Queue.pos_of_get? he) fun e _ => ⟨rfl, rfl, Bool.noConfusion⟩
  exact hcompleted.trans ((Passive.withPool _ _).trans (.alike (conclude_alike s q item)))

/-- A promise may be settled. -/
theorem settle (he : s.get? item = some e) (p : Promise) : Passive s (s.settle item p) := by
  apply Passive.trans _ (alike (settle_alike he p))
  exact update he fun _ => ⟨rfl, rfl, id⟩

end Passive

/-- How an item has come to be as it is after an effect: it has just entered, it was there before and has not
been assigned, or it is the item that was assigned, as one of the judges let it go. -/
inductive Origin (judges : Set Judge) (s t : Scheduler) (item : ItemRef) (e' : Entrant) : Prop where
  | entered (hstate : e'.state = .pending) (ha : e'.assignment = none)
  | stayed {e : Entrant} (he : s.get? item = some e) (hstays : e.Stays e')
  | assigned {judge : Judge} {n : Node} {e : Entrant} (hjudge : judge ∈ judges)
      (hfit : Eligible judge s item.queue n e)
      (hid : e.item.id = item.id) (ht : t = s.assign item.queue n e) (hitem : e'.item = e.item)
      (ha : e'.assignment = some ⟨n.name, n.serial, (s.queue item.queue).nextRun e.item.task⟩)

/-- Where nothing is assigned, items stay. -/
theorem Passive.origin (h : Passive s t) (he' : t.get? item = some e') : Origin judges s t item e' := by
  obtain ⟨e, he, hstays⟩ := h item e' he'
  exact .stayed he hstays

/-- After an assignment, an item is the one that was assigned or is as it was before. -/
theorem Eligible.get?_assign {n : Node} (hfit : Eligible judge s q n e)
    (he' : (s.assign q n e).get? item = some e') :
    (item = ⟨q, e.item.id⟩ ∧ e'.item = e.item ∧
      e'.assignment = some ⟨n.name, n.serial, (s.queue q).nextRun e.item.task⟩) ∨
    (item ≠ ⟨q, e.item.id⟩ ∧ s.get? item = some e') := by
  have hget : ((s.withQueue q (·.assign e.item.id ⟨n.name, n.serial, (s.queue q).nextRun e.item.task⟩)).queue
      item.queue).get? item.id = some e' := he'
  rw [queue_withQueue] at hget
  split at hget
  case isFalse hq =>
    refine .inr ⟨?_, hget⟩
    rintro rfl
    exact hq ⟨rfl, lt_of_mem (.inl hfit.pending)⟩
  case isTrue hq =>
    obtain ⟨rfl, -⟩ := hq
    obtain ⟨e₀, he₀, rfl⟩ := (Queue.get?_update_eq_some (Queue.pos_of_get? hfit.known)).mp hget
    by_cases hid : item.id = e.item.id
    · have hitem : item = ⟨item.queue, e.item.id⟩ := by rw [← hid]
      have hsame : e₀ = e := by
        rw [hid] at he₀
        exact Option.some.inj (he₀.symm.trans hfit.known)
      rw [if_pos hid, hsame]
      exact .inl ⟨hitem, rfl, rfl⟩
    · rw [if_neg hid]
      exact .inr ⟨fun hitem => hid (congrArg ItemRef.id hitem), he₀⟩

/-- Every item has one of these origins. -/
theorem Effect.origin (hs : s.WellFormed) (h : Effect judges s t) (he' : t.get? item = some e') :
    Origin judges s t item e' := by
  cases h with
  | note h => exact (Passive.alike h).origin he'
  | read r => exact (Passive.withPool s _).origin he'
  | join labels h => exact (Passive.withPool s _).origin he'
  | leave name => exact (Passive.withPool s _).origin he'
  | turn state h hfree => exact (Passive.withPool s _).origin he'
  | @enter q i h =>
      rw [get?, queue_withQueue] at he'
      split at he'
      case isTrue hq =>
        rw [Queue.get?_add] at he'
        split at he'
        case isTrue => exact Option.some.inj he' ▸ .entered rfl rfl
        case isFalse => exact .stayed he' (.refl e')
      case isFalse => exact .stayed he' (.refl e')
  | assign hjudge h =>
      rcases h.get?_assign he' with ⟨rfl, hitem, ha⟩ | ⟨-, he⟩
      · exact .assigned hjudge h rfl rfl hitem ha
      · exact .stayed he (.refl e')
  | keep h ha => exact (Passive.settle h _).origin he'
  | @withdraw q item h =>
      obtain ⟨e, he⟩ := (hs.queues q).known (.inl (mem_of_isPendingIn h).2)
      apply (Passive.withQueue (Queue.stays_of_update rfl (Queue.pos_of_get? he) ?_)).origin he'
      exact fun e _ => ⟨rfl, rfl, Bool.noConfusion⟩
  | renounce h _ => exact (Passive.settle h _).origin he'
  | @start q item h =>
      have hmem := (mem_of_isBuildingIn h).2
      obtain ⟨e, he⟩ := (hs.queues q).known (.inr hmem)
      apply (Passive.withQueue (Queue.stays_of_update rfl (Queue.pos_of_get? he) ?_)).origin he'
      exact fun e he => ⟨rfl, rfl, fun _ => ((hs.queues q).building_iff he).mp hmem⟩
  | complete h => exact (Passive.conclude hs h).origin he'
  | openQueue listeners =>
      rw [get?, queue_openQueue] at he'
      split at he'
      case isTrue => cases hid : item.id <;> rw [hid] at he' <;> cases he'
      case isFalse => exact .stayed he' (.refl e')
  | listen q p =>
      apply (Passive.withQueue fun id e' he' => ?_).origin he'
      exact ⟨e', (Queue.get?_congr rfl id).symm.trans he', .refl e'⟩
  | subscribe p => exact (Passive.withPool s _).origin he'
  | watch p item' =>
      rcases watch_cases s p item' with h | ⟨e, he, h⟩
      · exact (Passive.alike h).origin he'
      · have hpassive : Passive s (s.watch p item') := h ▸ Passive.update he fun _ => ⟨rfl, rfl, id⟩
        exact hpassive.origin he'

/-- Nothing holds an item back: nothing that its blockers look at, and no outside party among its blockers when
that is asked in such a state. -/
structure Unblocked (judge : Judge) (s : Scheduler) (q : Nat) (e : Entrant) : Prop where
  /-- No item that it waits for is assigned or running. -/
  items : ∀ awaited, .item awaited ∈ e.item.blockers → ∀ e', s.get? awaited = some e' →
    e'.state ≠ .assigned ∧ e'.state ≠ .running
  /-- No run of a task that it waits for is building in its queue. -/
  tasks : ∀ name queued, .task name queued ∈ e.item.blockers → ∀ e' ∈ (s.queue q).buildingEntrants,
    e'.item.task.text ≠ name
  /-- If it also waits for queued ones, no other item of the task is pending there. -/
  queued : ∀ name, .task name true ∈ e.item.blockers → ∀ e' ∈ (s.queue q).pendingEntrants,
    e'.item.task.text = name → e'.item.id = e.item.id
  /-- No run that it waits for is building there. -/
  runs : ∀ r, .run r ∈ e.item.blockers → ∀ e' ∈ (s.queue q).buildingEntrants, e'.run ≠ some r
  /-- Every outside party among its blockers lets it go, asked when the pool and the queues are as they are. -/
  parties : ∀ p, .party p ∈ e.item.blockers → ∃ t, Alike s t ∧ judge p t ⟨q, e.item.id⟩ = .free

/-- Nothing holds back an item that is eligible. -/
theorem Eligible.unblocked {n : Node} (hfit : Eligible judge s q n e) : Unblocked judge s q e where
  items awaited hb e' he' := by
    obtain ⟨t, hst, hfree⟩ := hfit.free _ hb
    rw [Blocker.verdict, hst.get?, he'] at hfree
    cases hstate : e'.state <;> simp [hstate, ItemState.isBuilding] at hfree ⊢
  tasks name queued hb e' he' htask := by
    obtain ⟨t, hst, hfree⟩ := hfit.free _ hb
    have hbuilding : (s.queue q).isTaskBuilding name = true :=
      List.any_eq_true.mpr ⟨e', he', beq_iff_eq.mpr htask⟩
    simp [Blocker.verdict, hst.queue, hbuilding] at hfree
  queued name hb e' he' htask := by
    obtain ⟨t, hst, hfree⟩ := hfit.free _ hb
    by_contra hne
    have hqueued : (s.queue q).isTaskQueued name (some e.item.id) = true :=
      List.any_eq_true.mpr ⟨e', he', by simp [htask, hne]⟩
    rw [Blocker.verdict, hst.queue] at hfree
    split at hfree
    · cases hfree
    · simp [hqueued] at hfree
  runs r hb e' he' hrun := by
    obtain ⟨t, hst, hfree⟩ := hfit.free _ hb
    have hbuilding : (s.queue q).isRunBuilding r = true :=
      List.any_eq_true.mpr ⟨e', he', beq_iff_eq.mpr hrun⟩
    simp [Blocker.verdict, hst.queue, hbuilding] at hfree
  parties p hb := hfit.free _ hb

/-- Where no judge is heard, nothing is assigned. -/
theorem Effects.assigned_before (hs : s.WellFormed) (h : Effects ∅ s t) (he' : t.get? item = some e')
    (ha : e'.assignment = some a) : ∃ e, s.get? item = some e ∧ e.item = e'.item ∧ e.assignment = some a := by
  induction h generalizing e' with
  | refl => exact ⟨e', he', rfl, ha⟩
  | tail hsu hut ih =>
      cases hut.origin (hs.effects hsu) he' with
      | entered _ hnone => exact nomatch hnone.symm.trans ha
      | stayed he hstays =>
          rw [hstays.item]
          exact ih he (hstays.assignment ▸ ha)
      | assigned hjudge => exact absurd hjudge (Set.notMem_empty _)

/-- No two items of the task are building in the queue. -/
def SoleRun (s : Scheduler) (q : Nat) (task : String) : Prop :=
  ∀ id id' e e', s.get? ⟨q, id⟩ = some e → s.get? ⟨q, id'⟩ = some e' → e.item.task.text = task →
    e'.item.task.text = task → e.state.isBuilding = true → e'.state.isBuilding = true → id = id'

/-- All items of the task in the queue wait for runs of the task to end. -/
def SelfBlocked (s : Scheduler) (q : Nat) (task : String) : Prop :=
  ∀ e ∈ (s.queue q).entrants, e.item.task.text = task → ∃ queued, .task task queued ∈ e.item.blockers

/-- If all items of a task wait for its runs, then those that entered earlier do. -/
theorem SelfBlocked.earlier {task : String} (h : Grows s t) (hblocked : t.SelfBlocked q task) :
    s.SelfBlocked q task := by
  intro e he htask
  obtain ⟨id, hget⟩ := mem_entrants_iff.mp he
  obtain ⟨e', he', hitem⟩ := h.items hget
  rw [← hitem] at htask ⊢
  exact hblocked e' (mem_entrants_iff.mpr ⟨id, he'⟩) htask

/-- If all items of a task wait for its runs, an effect does not start a second one. -/
theorem SoleRun.effect {task : String} (hs : s.WellFormed) (hsole : s.SoleRun q task) (h : Effect judges s t)
    (hblocked : t.SelfBlocked q task) : t.SoleRun q task := by
  -- an item that is assigned just now waits for all those that are building
  have hfirst {judge : Judge} {n : Node} {i : Entrant} (hfit : Eligible judge s q n i)
      (ht : t = s.assign q n i) {e' : Entrant} {id' : Nat} (he' : t.get? ⟨q, id'⟩ = some e') {e : Entrant}
      (he : t.get? ⟨q, i.item.id⟩ = some e) (hitem : e.item = i.item) (htask : e.item.task.text = task)
      (htask' : e'.item.task.text = task) (hb' : e'.state.isBuilding = true) : i.item.id = id' := by
    by_contra hne
    rw [ht] at he'
    rcases hfit.get?_assign he' with ⟨hsame, -⟩ | ⟨-, hold⟩
    · exact hne (congrArg ItemRef.id hsame).symm
    · have hnumber := (hs.queues q).numbered hold
      have hbuilding : e' ∈ (s.queue q).buildingEntrants := by
        refine ((hs.queues q).mem_buildingEntrants).mpr ⟨hnumber ▸ hold, ?_⟩
        exact ((hs.queues q).building_iff (hnumber ▸ hold)).mpr hb'
      obtain ⟨queued, hb⟩ := hblocked e (mem_entrants_iff.mpr ⟨_, he⟩) htask
      exact hfit.unblocked.tasks task queued (hitem ▸ hb) e' hbuilding htask'
  intro id id' e e' he he' htask htask' hb hb'
  cases h.origin hs he with
  | entered hstate _ => rw [hstate] at hb; cases hb
  | assigned _ hfit hid ht hitem _ =>
      obtain rfl : _ = id := hid
      exact hfirst hfit ht he' he hitem htask htask' hb'
  | @stayed e₀ he₀ hstays =>
      cases h.origin hs he' with
      | entered hstate _ => rw [hstate] at hb'; cases hb'
      | assigned _ hfit hid ht hitem _ =>
          obtain rfl : _ = id' := hid
          exact (hfirst hfit ht he he' hitem htask' htask hb).symm
      | @stayed e₀' he₀' hstays' =>
          exact hsole id id' e₀ e₀' he₀ he₀' (hstays.item ▸ htask) (hstays'.item ▸ htask')
            (hstays.building hb) (hstays'.building hb')

/-- If all items of a task wait for its runs, there is never more than one run. -/
theorem SoleRun.effects {task : String} (h : Effects judges .empty s) (hblocked : s.SelfBlocked q task) :
    s.SoleRun q task := by
  induction h with
  | refl =>
      intro id id' e e' he
      exact absurd (lt_of_get? he) (Nat.not_lt_zero q)
  | tail hsteps hstep ih =>
      have hbefore := ih (hblocked.earlier (Grows.effect hstep))
      exact hbefore.effect (WellFormed.empty.effects hsteps) hstep hblocked

end Scheduler

end LabelScheduler
