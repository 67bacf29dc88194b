import LabelScheduler.Proofs.Scheduler.Refusal
import Mathlib.Data.List.Pairwise

/-!
# Runs are numbered without gaps

When an item is assigned, the runs of its task are counted on and the item is given the new number. Nothing else
counts runs and nothing else gives an item a run, so along the items of a queue in the order in which they were
assigned, the runs of each task are numbered from one, and the count is the number of these items.
-/

namespace LabelScheduler

/-- What an item says about the runs of its task: the task, and what the item was assigned. -/
def Entrant.share (e : Entrant) : TaskName × Option Assignment := (e.item.task, e.assignment)

/-- The first runs of a task. -/
def firstRuns (task : TaskName) (n : Nat) : List RunReference :=
  (List.range n).map fun k => ⟨task, k + 1, k.succ_pos⟩

/-- One more run. -/
theorem firstRuns_succ (task : TaskName) (n : Nat) :
    firstRuns task (n + 1) = firstRuns task n ++ [⟨task, n + 1, n.succ_pos⟩] := by
  rw [firstRuns, List.range_succ, List.map_append, firstRuns]
  rfl

/-- No run is listed twice. -/
theorem firstRuns_nodup (task : TaskName) (n : Nat) : (firstRuns task n).Nodup := by
  refine (List.nodup_map_iff fun k k' h => ?_).mpr List.nodup_range
  simpa using h

/-- All of them are runs of the task. -/
theorem task_of_mem_firstRuns {task : TaskName} {n : Nat} {r : RunReference} (h : r ∈ firstRuns task n) :
    r.task = task := by
  obtain ⟨k, -, rfl⟩ := List.mem_map.mp h
  rfl

namespace Queue

variable {q r : Queue} {id : Nat} {ids : List Nat} {task : TaskName} {a : Assignment} {e : Entrant}

/-- The run of an item of the task. -/
def runFor (q : Queue) (task : TaskName) (id : Nat) : Option RunReference :=
  (q.get? id).bind fun e => if e.item.task = task then e.run else none

/-- The runs that were given to those of the items that are of the task. -/
def runsAlong (q : Queue) (task : TaskName) (ids : List Nat) : List RunReference := ids.filterMap (q.runFor task)

/-- Runs depend on what items say about them. -/
theorem runFor_congr (h : (r.get? id).map Entrant.share = (q.get? id).map Entrant.share) (task : TaskName) :
    r.runFor task id = q.runFor task id := by
  have hshare (o : Option Entrant) : (o.bind fun e => if e.item.task = task then e.run else none) =
      (o.map Entrant.share).bind fun x => if x.1 = task then x.2.map Assignment.run else none := by
    cases o <;> rfl
  rw [runFor, runFor, hshare, hshare, h]

/-- After a run has been counted, its number is the count of its task, and the other counts are as they were. -/
theorem runsOf_countRun (q : Queue) (t : TaskName) (n : Nat) (u : TaskName) :
    { q with runs := countRun t n q.runs }.runsOf u = if u = t then n else q.runsOf u := by
  have hfind (runs : List (TaskName × Nat)) : ((countRun t n runs).find? (·.1 == u)).map (·.2) =
      if u = t then some n else (runs.find? (·.1 == u)).map (·.2) := by
    induction runs with
    | nil =>
        by_cases hu : u = t
        · simp [countRun, hu]
        · simp [countRun, hu, Ne.symm hu]
    | cons run runs ih =>
        obtain ⟨v, m⟩ := run
        by_cases hv : v = t
        · by_cases hu : u = t
          · simp [countRun, hv, hu]
          · simp [countRun, hv, hu, Ne.symm hu]
        · by_cases hu : v = u
          · simp [countRun, hu, hu ▸ hv]
          · simp [countRun, hv, hu, ih]
  unfold runsOf
  rw [hfind]
  split <;> rfl

/-- An assignment counts its run. -/
theorem runsOf_assign (q : Queue) (id : Nat) (a : Assignment) (task : TaskName) :
    (q.assign id a).runsOf task = if task = a.run.task then a.run.number else q.runsOf task :=
  runsOf_countRun q a.run.task a.run.number task

/-- An item that is assigned after others adds its run to those of its task. -/
theorem runsAlong_assign (he : q.get? id = some e) (hnew : id ∉ ids) :
    (q.assign id a).runsAlong task (ids ++ [id]) =
      q.runsAlong task ids ++ if e.item.task = task then [a.run] else [] := by
  have hget := get?_assign (q := q) (pos_of_get? he) a
  have hold : (q.assign id a).runsAlong task ids = q.runsAlong task ids :=
    List.filterMap_congr fun j hj => by
      have hne : j ≠ id := fun heq => hnew (heq ▸ hj)
      rw [runFor, runFor, hget, if_neg hne]
  have hlast : (q.assign id a).runFor task id = if e.item.task = task then some a.run else none := by
    rw [runFor, hget, if_pos rfl, he]
    rfl
  rw [runsAlong, List.filterMap_append, ← hold, runsAlong]
  by_cases htask : e.item.task = task
  · rw [if_pos htask] at hlast ⊢
    rw [List.filterMap_cons_some hlast, List.filterMap_nil]
  · rw [if_neg htask] at hlast ⊢
    rw [List.filterMap_cons_none hlast, List.filterMap_nil]

/-- The queue goes on without an assignment: no item enters or is given a run, and no run is counted. -/
structure Settles (q r : Queue) : Prop where
  shares : ∀ id, (r.get? id).map Entrant.share = (q.get? id).map Entrant.share
  pending : r.pending ⊆ q.pending
  building : r.building.Sublist q.building
  runs : r.runs = q.runs

namespace Settles

/-- The two lists may lose items. -/
theorem lists (hentrants : r.entrants = q.entrants) (hpending : r.pending ⊆ q.pending)
    (hbuilding : r.building.Sublist q.building) (hruns : r.runs = q.runs) : Settles q r where
  shares id := by rw [get?_congr hentrants]
  pending := hpending
  building := hbuilding
  runs := hruns

/-- A queue may stay as it is. -/
protected theorem refl (q : Queue) : Settles q q := lists rfl (List.Subset.refl _) (.refl _) rfl

/-- An item may change in its state, its promise and its watchers. -/
theorem update (h : Settles q r) {f : Entrant → Entrant} (hf : ∀ e, (f e).share = e.share) (id : Nat) :
    Settles q (r.update id f) where
  shares j := by
    rw [← h.shares j]
    cases j with
    | zero => rfl
    | succ j =>
        change ((r.entrants.modify (id - 1) f)[j]?).map Entrant.share = r.entrants[j]?.map Entrant.share
        rw [List.getElem?_modify]
        cases r.entrants[j]? with
        | none => rfl
        | some e => by_cases hj : id - 1 = j <;> simp [hj, hf]
  pending := h.pending
  building := h.building
  runs := h.runs

/-- A pending item may be cancelled. -/
theorem withdraw (q : Queue) (id : Nat) : Settles q (q.withdraw id) := by
  have hrest : Settles q { q with pending := q.pending.erase id } :=
    .lists rfl List.erase_subset (.refl _) rfl
  exact hrest.update (f := fun e => { e with state := .cancelled }) (fun _ => rfl) id

/-- A building item may complete. -/
theorem complete (q : Queue) (id : Nat) : Settles q (q.complete id) := by
  have hrest : Settles q { q with building := q.building.erase id } :=
    .lists rfl (List.Subset.refl _) List.erase_sublist rfl
  exact hrest.update (f := fun e => { e with state := .completed }) (fun _ => rfl) id

end Settles

/-- The items that were assigned, in this order, were given the runs of their tasks in turn: no item was assigned
twice, those that are building were assigned in the order in which they are listed, those that are pending were not
assigned, and for every task the runs are the first ones, as many as the queue has counted. -/
structure Numbered (q : Queue) (ids : List Nat) : Prop where
  distinct : ids.Nodup
  assigned : ∀ id, id ∈ ids ↔ ∃ e, q.get? id = some e ∧ e.assignment.isSome = true
  pending : ∀ id ∈ q.pending, id ∉ ids
  building : q.building.Sublist ids
  runs : ∀ task, q.runsAlong task ids = firstRuns task (q.runsOf task)

namespace Numbered

/-- Nothing has been assigned. -/
protected theorem empty : Queue.empty.Numbered [] where
  distinct := .nil
  assigned id := by cases id <;> simp [Queue.empty, get?]
  pending id hid := absurd hid List.not_mem_nil
  building := .slnil
  runs task := rfl

/-- Whether an item was assigned is seen from what it says. -/
theorem assigned_iff (q : Queue) (id : Nat) : (∃ e, q.get? id = some e ∧ e.assignment.isSome = true) ↔
    ((q.get? id).map Entrant.share).any (·.2.isSome) = true := by
  cases q.get? id <;> simp [Entrant.share]

/-- Without an assignment the numbers stay as they are. -/
theorem settles (h : q.Numbered ids) (hr : Settles q r) : r.Numbered ids where
  distinct := h.distinct
  assigned id := by rw [h.assigned, assigned_iff, assigned_iff, hr.shares]
  pending id hid := h.pending id (hr.pending hid)
  building := hr.building.trans h.building
  runs task := by
    have hcount : r.runsOf task = q.runsOf task := by rw [runsOf, runsOf, hr.runs]
    rw [hcount, ← h.runs]
    exact List.filterMap_congr fun id _ => runFor_congr (hr.shares id) task

/-- A new item has no run. -/
theorem add (h : q.Numbered ids) {i : Item} (hi : i.id = q.nextId) : (q.add i).Numbered ids := by
  have hnew : q.nextId ∉ ids := by
    intro hmem
    obtain ⟨e, he, -⟩ := (h.assigned _).mp hmem
    rw [get?_nextId] at he
    cases he
  exact
    { distinct := h.distinct
      assigned := fun id => by
        rw [get?_add]
        by_cases hid : id = q.nextId
        · simp [hid, hnew, Entrant.fresh]
        · rw [if_neg hid, h.assigned]
      pending := fun id hid => by
        rcases List.mem_append.mp hid with hold | hlast
        · exact h.pending id hold
        · rw [List.mem_singleton.mp hlast, hi]
          exact hnew
      building := h.building
      runs := fun task => by
        have hcount : (q.add i).runsOf task = q.runsOf task := rfl
        rw [hcount, ← h.runs]
        refine List.filterMap_congr fun id hid => ?_
        have hne : id ≠ q.nextId := fun heq => hnew (heq ▸ hid)
        rw [runFor, runFor, get?_add, if_neg hne] }

/-- An item that is assigned is given the next run of its task. -/
theorem assign (h : q.Numbered ids) (hq : q.Orderly) (he : q.get? id = some e) (hid : id ∈ q.pending)
    (hrun : a.run = q.nextRun e.item.task) : (q.assign id a).Numbered (ids ++ [id]) := by
  have hnew : id ∉ ids := h.pending id hid
  exact
    { distinct := List.nodup_append.mpr ⟨h.distinct, List.nodup_singleton _, fun j hj k hk heq =>
        hnew (List.mem_singleton.mp hk ▸ heq ▸ hj)⟩
      assigned := fun j => by
        rw [get?_assign (pos_of_get? he), List.mem_append, List.mem_singleton, h.assigned]
        by_cases hj : j = id
        · simp [hj, he]
        · simp [hj]
      pending := fun j hj => by
        obtain ⟨hne, hold⟩ := (hq.pending_nodup.mem_erase_iff).mp hj
        simp [hne, h.pending j hold]
      building := h.building.append (.refl [id])
      runs := fun task => by
        rw [runsAlong_assign he hnew, runsOf_assign, h.runs, hrun]
        change _ = firstRuns task (if task = e.item.task then q.runsOf e.item.task + 1 else q.runsOf task)
        by_cases htask : e.item.task = task
        · subst htask
          rw [if_pos rfl, if_pos rfl, firstRuns_succ]
          rfl
        · rw [if_neg htask, if_neg (Ne.symm htask), List.append_nil] }

/-- The run of an item is one of its own task. -/
theorem task_of_run (h : q.Numbered ids) (he : q.get? id = some e) {run : RunReference} (hrun : e.run = some run) :
    run.task = e.item.task := by
  have hid : id ∈ ids := by
    obtain ⟨a, ha, -⟩ := Option.map_eq_some_iff.mp hrun
    exact (h.assigned id).mpr ⟨e, he, by rw [ha]; rfl⟩
  have hmem : run ∈ q.runsAlong e.item.task ids :=
    List.mem_filterMap.mpr ⟨id, hid, by rw [runFor, he, Option.bind_some, if_pos rfl, hrun]⟩
  exact task_of_mem_firstRuns (h.runs _ ▸ hmem)

/-- Two items with the same run are one. -/
theorem eq_of_run (h : q.Numbered ids) {id' : Nat} {e' : Entrant} (he : q.get? id = some e)
    (he' : q.get? id' = some e') {run : RunReference} (hrun : e.run = some run) (hrun' : e'.run = some run) :
    id = id' := by
  have hfor {j : Nat} {i : Entrant} (hi : q.get? j = some i) (hr : i.run = some run) :
      j ∈ ids ∧ q.runFor run.task j = some run := by
    obtain ⟨a, ha, -⟩ := Option.map_eq_some_iff.mp hr
    refine ⟨(h.assigned j).mpr ⟨i, hi, by rw [ha]; rfl⟩, ?_⟩
    rw [runFor, hi, Option.bind_some, if_pos (h.task_of_run hi hr).symm, hr]
  obtain ⟨hid, hfirst⟩ := hfor he hrun
  obtain ⟨hid', hsecond⟩ := hfor he' hrun'
  have hnodup : (q.runsAlong run.task ids).Nodup := h.runs run.task ▸ firstRuns_nodup _ _
  have hapart := List.pairwise_filterMap.mp hnodup
  have hsymm : Std.Symm fun i j => ∀ r, q.runFor run.task i = some r → ∀ r', q.runFor run.task j = some r' → r ≠ r' :=
    ⟨fun _ _ h r hr r' hr' heq => h r' hr' r hr heq.symm⟩
  by_contra hne
  exact hapart.forall hid hid' hne run hfirst run hsecond rfl

end Numbered

/-- The next run of a task can always be made. -/
theorem make_nextRun (q : Queue) (task : TaskName) :
    RunReference.make task.text (q.runsOf task + 1 : Nat) = .ok (q.nextRun task) := by
  have hpositive : (0 : Int) < (q.runsOf task + 1 : Nat) := by omega
  rw [RunReference.make, dif_pos task.valid, dif_pos hpositive]
  rfl

end Queue

namespace Scheduler

variable {judge : Judge} {judges : Set Judge} {s t : Scheduler} {q : Nat} {ids : List Nat}

/-- Where one queue goes on without an assignment, all do. -/
theorem settles_withQueue {j : Nat} {f : Queue → Queue} (h : (s.queue j).Settles (f (s.queue j))) (q : Nat) :
    (s.queue q).Settles ((s.withQueue j f).queue q) := by
  rw [queue_withQueue]
  split
  case isTrue hq => exact hq.1 ▸ h
  case isFalse => exact .refl _

/-- What has happened to a queue: an item of it was assigned, or one has entered, or neither. -/
inductive Recount (s t : Scheduler) (q : Nat) : Prop where
  | assigned {judge : Judge} {n : Node} {e : Entrant} (hfit : Eligible judge s q n e) (ht : t = s.assign q n e)
  | entered {i : Item} (hi : i.id = (s.queue q).nextId) (hadd : t.queue q = (s.queue q).add i)
  | settled (h : (s.queue q).Settles (t.queue q))

/-- One of these has happened to a queue after every effect. -/
theorem Effect.recount (h : Effect judges s t) (q : Nat) : Recount s t q := by
  have hsame {u : Scheduler} (hu : u.queue q = s.queue q) : (s.queue q).Settles (u.queue q) := hu ▸ .refl _
  have hupdate (j id : Nat) {f : Entrant → Entrant} (hf : ∀ e, (f e).share = e.share) :
      (s.queue q).Settles ((s.withQueue j (·.update id f)).queue q) :=
    settles_withQueue (.update (.refl _) hf id) q
  cases h with
  | note h => exact .settled (hsame (h.queue q))
  | read r => exact .settled (hsame rfl)
  | join labels h => exact .settled (hsame rfl)
  | leave name => exact .settled (hsame rfl)
  | turn state h hfree => exact .settled (hsame rfl)
  | @enter j i h =>
      by_cases hq : q = j ∧ j < s.queues.length
      · obtain ⟨rfl, hopen⟩ := hq
        exact .entered h (queue_withQueue_self hopen _)
      · exact .settled (hsame ((queue_withQueue s j _ q).trans (if_neg hq)))
  | @assign judge j n e hjudge hfit =>
      by_cases hq : q = j
      · subst hq
        exact .assigned hfit rfl
      · exact .settled (hsame ((queue_assign s j n e q).trans (if_neg fun h => hq h.1)))
  | keep h ha => exact .settled ((settle_alike h _).queue q ▸ hupdate _ _ fun _ => rfl)
  | withdraw h => exact .settled (settles_withQueue (.withdraw _ _) q)
  | renounce h hstate => exact .settled ((settle_alike h _).queue q ▸ hupdate _ _ fun _ => rfl)
  | start h => exact .settled (hupdate _ _ fun _ => rfl)
  | @complete j item h =>
      refine .settled ?_
      rw [(conclude_alike s j item).queue]
      exact settles_withQueue (.complete _ _) q
  | openQueue listeners =>
      refine .settled ?_
      rw [queue_openQueue]
      split
      case isTrue hq =>
        have hempty : s.queue q = .empty := List.getD_eq_default _ _ (Nat.le_of_eq hq.symm)
        rw [hempty]
        exact .lists rfl (List.Subset.refl _) (.refl _) rfl
      case isFalse => exact .refl _
  | listen j p => exact .settled (settles_withQueue (.lists rfl (List.Subset.refl _) (.refl _) rfl) q)
  | subscribe p => exact .settled (hsame rfl)
  | watch p item =>
      rcases watch_cases s p item with h | ⟨e, he, h⟩
      · exact .settled (hsame (h.queue q))
      · exact .settled (h ▸ hupdate _ _ fun _ => rfl)

/-- Effects have led from nothing to this state, and on the way these items of the queue were assigned, in this
order. -/
inductive AssignedInTurn (q : Nat) : List Nat → Scheduler → Prop where
  | nothing : AssignedInTurn q [] .empty
  | assign {judge : Judge} {s : Scheduler} {n : Node} {e : Entrant} {ids : List Nat} (h : AssignedInTurn q ids s)
      (hfit : Eligible judge s q n e) : AssignedInTurn q (ids ++ [e.item.id]) (s.assign q n e)
  | other {s t : Scheduler} {ids : List Nat} (h : AssignedInTurn q ids s) (hst : Effect Set.univ s t)
      (hnone : ∀ judge n e, Eligible judge s q n e → t ≠ s.assign q n e) : AssignedInTurn q ids t

namespace AssignedInTurn

/-- A state with such a history is well formed. -/
theorem wellFormed (h : AssignedInTurn q ids s) : s.WellFormed := by
  induction h with
  | nothing => exact .empty
  | assign _ hfit ih => exact ih.assign _ hfit.pending
  | other _ hst _ ih => exact ih.effect hst

/-- Along every such history the runs are numbered in turn. -/
theorem numbered (h : AssignedInTurn q ids s) : (s.queue q).Numbered ids := by
  induction h with
  | nothing => exact .empty
  | @assign judge s n e ids hbefore hfit ih =>
      rw [queue_assign, if_pos ⟨rfl, lt_of_mem (.inl hfit.pending)⟩]
      exact ih.assign (hbefore.wellFormed.queues q) hfit.known hfit.pending rfl
  | other _ hst hnone ih =>
      cases hst.recount q with
      | assigned hfit ht => exact absurd ht (hnone _ _ _ hfit)
      | entered hi hadd => exact hadd ▸ ih.add hi
      | settled hsettles => exact ih.settles hsettles

/-- Every history goes on while effects happen. -/
theorem extend (h : AssignedInTurn q ids s) (hst : s.Reaches t) : ∃ more, AssignedInTurn q (ids ++ more) t := by
  induction hst with
  | refl => exact ⟨[], by rwa [List.append_nil]⟩
  | @tail u t _ hut ih =>
      obtain ⟨more, hbefore⟩ := ih
      by_cases hassign : ∃ judge n e, Eligible judge u q n e ∧ t = u.assign q n e
      · obtain ⟨judge, n, e, hfit, rfl⟩ := hassign
        exact ⟨more ++ [e.item.id], by rw [← List.append_assoc]; exact hbefore.assign hfit⟩
      · exact ⟨more, hbefore.other hut fun judge n e hfit ht => hassign ⟨judge, n, e, hfit, ht⟩⟩

end AssignedInTurn

end Scheduler

open Scheduler in
/-- At every moment of a run, also in the middle of an operation: the items of a queue have been assigned in some
order, and whatever happens later on, this order goes on. Along every such order the runs of each task are the first
ones, one after the other, as many as the queue has counted, and no others were given to the items of the task. So no
two items have the same run. The next run of a task can always be made, as a submission is refused for its task
exactly if the name holds the mark. -/
theorem Config.run_numbered (moves : List Move) {s : Scheduler} (hreach : (run moves).state.Reaches s) (q : Nat) :
    (∃ ids, AssignedInTurn q ids s) ∧
    (∀ ids, AssignedInTurn q ids s → (s.queue q).Numbered ids ∧
      ∀ t, s.Reaches t → ∃ more, AssignedInTurn q (ids ++ more) t) ∧
    (∀ id id' e e' run, s.get? ⟨q, id⟩ = some e → s.get? ⟨q, id'⟩ = some e' → e.run = some run →
      e'.run = some run → id = id' ∧ run.task = e.item.task) ∧
    (∀ task, RunReference.make task.text ((s.queue q).runsOf task + 1 : Nat) = .ok ((s.queue q).nextRun task)) ∧
    ∀ task id, taskNamed task id = none ↔ '#' ∈ task.toList := by
  have hempty : Scheduler.empty.Reaches s := ((run_changes moves).effects .empty).trans hreach
  obtain ⟨ids, hids⟩ := (AssignedInTurn.nothing : AssignedInTurn q [] .empty).extend hempty
  refine ⟨⟨_, hids⟩, fun ids h => ⟨h.numbered, fun t hst => h.extend hst⟩, ?_, ?_, ?_⟩
  · intro id id' e e' run he he' hrun hrun'
    exact ⟨hids.numbered.eq_of_run he he' hrun hrun', hids.numbered.task_of_run he hrun⟩
  · exact fun task => (s.queue q).make_nextRun task
  · refine fun task id => ⟨fun hnone => by_contra fun hmark => ?_, fun hmark => taskNamed_eq_none hmark id⟩
    obtain ⟨name, hname⟩ := taskNamed_isSome hmark id
    exact nomatch hnone.symm.trans hname

open Scheduler in
/-- An item without a task is assigned, and the listener fails; its node is removed and registered again, an item of
the task that the first one was given by default is assigned to the new one, and another one is cancelled. -/
theorem Config.run_numbered_default_name :
    let moves : List Move :=
      [.ask .lenient (.openQueue [0]), .ask .lenient (.register "a" (.parts [])),
        .ask .lenient (.submit 0 (.plain .none) "" []), .answer (some (.outside "RuntimeError" "listener")),
        .ask .lenient (.remove "a"), .ask .lenient (.register "a" (.parts [])),
        .ask .lenient (.submit 0 (.plain .none) "item-1" []), .answer none,
        .ask .lenient (.submit 0 (.plain .none) "item-1" []), .ask .lenient (.cancel 0 ⟨0, 3⟩)]
    let s := (run moves).state
    let task : TaskName := ⟨"item-1", by decide⟩
    (s.queue 0).building = [1, 2] ∧
      (∃ ids, AssignedInTurn 0 ids s ∧ (s.queue 0).Numbered ids ∧
        (s.queue 0).runsAlong task ids = [⟨task, 1, by decide⟩, ⟨task, 2, by decide⟩]) ∧
      ∃ e, s.get? ⟨0, 2⟩ = some e ∧ e.run = some ⟨task, 2, by decide⟩ ∧
        ∀ id e', s.get? ⟨0, id⟩ = some e' → e'.run = some ⟨task, 2, by decide⟩ → id = 2 := by
  intro moves s task
  obtain ⟨⟨ids, hids⟩, hnumbered, hsole, -⟩ := run_numbered moves (.refl : s.Reaches s) 0
  have hruns := (hnumbered ids hids).1.runs task
  have hcount : (s.queue 0).runsOf task = 2 := by decide
  rw [hcount] at hruns
  have hsecond : (s.get? ⟨0, 2⟩).bind Entrant.run = some ⟨task, 2, by decide⟩ := by decide
  obtain ⟨e, he, hrun⟩ := Option.bind_eq_some_iff.mp hsecond
  refine ⟨by decide, ⟨ids, hids, (hnumbered ids hids).1, hruns⟩, e, he, hrun, fun id e' he' hrun' => ?_⟩
  exact (hsole id 2 e' e _ he' he hrun' hrun).1

end LabelScheduler
