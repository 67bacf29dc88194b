import LabelScheduler.Proofs.Scheduler.Announcement
import LabelScheduler.Proofs.Scheduler.FirstFit
import LabelScheduler.Proofs.Scheduler.Lifecycle

/-!
# Items that wait for their own task

An item that waits for its own task to leave the queue does not wait for itself, but it waits for every other pending
item of the task, also for those that were submitted later. If there is just one, the item is let go. If there are
two, each of them waits for the other one: no assignment and no other change lets either of them go, until one of
them is withdrawn. So where all items wait like this and every node is idle, matching assigns something exactly if
some task has a single pending item.
-/

namespace LabelScheduler

open Scheduler

namespace Scheduler

variable {judge : Judge} {q : Nat} {s t u : Scheduler} {n : Node} {e : Entrant} {i j : Item} {moments : List Moment}
  {reported : Set Nat} {item : ItemRef}

/-- The work is that of a pending item of the queue. -/
def Pends (s : Scheduler) (q : Nat) (i : Item) : Prop := ∃ e ∈ (s.queue q).pendingEntrants, e.item = i

/-- Two different items of one task are pending in the queue, and each of them waits for the task to be neither
building nor queued. -/
structure Twins (s : Scheduler) (q : Nat) (i j : Item) : Prop where
  first : s.Pends q i
  second : s.Pends q j
  distinct : i.id ≠ j.id
  task : i.task.text = j.task.text
  waits : ∀ k ∈ [i, j], .task k.task.text true ∈ k.blockers

/-- Nothing is building, all nodes are idle, and each pending item waits for nothing but its own task, with a label
that some node satisfies. -/
structure AwaitsItself (s : Scheduler) (q : Nat) : Prop where
  quiet : (s.queue q).building = []
  idle : ∀ n ∈ s.pool.nodes, n.state = .idle
  blockers : ∀ e ∈ (s.queue q).pendingEntrants, e.item.blockers = [.task e.item.task.text true]
  fits : ∀ e ∈ (s.queue q).pendingEntrants, ∃ n ∈ s.pool.nodes, n.meets e.item.label = true

/-- No other item of the task is pending in the queue. -/
def Alone (s : Scheduler) (q : Nat) (e : Entrant) : Prop :=
  ∀ e' ∈ (s.queue q).pendingEntrants, e'.item.task.text = e.item.task.text → e'.item.id = e.item.id

section Twins

/-- Journals and contacts do not matter. -/
theorem Pends.alike (hi : s.Pends q i) (h : Alike s t) : t.Pends q i := by
  obtain ⟨e, he, hitem⟩ := hi
  exact ⟨e, by rwa [h.queue], hitem⟩

/-- An item pends if it is found and its state is pending. -/
theorem pends_iff (hs : s.WellFormed) :
    s.Pends q i ↔ ∃ e, s.get? ⟨q, i.id⟩ = some e ∧ e.item = i ∧ e.state = .pending := by
  constructor
  · rintro ⟨e, he, rfl⟩
    obtain ⟨hget, hid⟩ := (hs.queues q).mem_pendingEntrants.mp he
    exact ⟨e, hget, rfl, ((hs.queues q).pending_iff hget).mp hid⟩
  · rintro ⟨e, hget, rfl, hstate⟩
    have hknown : (s.queue q).get? e.item.id = some e := hget
    exact ⟨e, (hs.queues q).mem_pendingEntrants.mpr ⟨hknown, ((hs.queues q).pending_iff hknown).mpr hstate⟩, rfl⟩

/-- An item still pends when another one has been assigned. -/
theorem Pends.assign (hi : s.Pends q i) (hs : s.WellFormed) (hfit : Eligible judge s q n e) (hne : i.id ≠ e.item.id) :
    (s.assign q n e).Pends q i := by
  have hplaced := Placed.single hs hfit
  obtain ⟨e', hget, hitem, hstate⟩ := (pends_iff hs).mp hi
  have hother : i.id ∉ [e.item.id] := by simpa using hne
  refine (pends_iff (hs.assign n hfit.pending)).mpr ⟨e', ?_, hitem, hstate⟩
  exact (hplaced.others ⟨q, i.id⟩ fun _ => hother).trans hget

namespace Twins

/-- It does not matter which of the two comes first. -/
protected theorem symm (h : Twins s q i j) : Twins s q j i where
  first := h.second
  second := h.first
  distinct := h.distinct.symm
  task := h.task.symm
  waits k hk := h.waits k (by simpa [or_comm] using hk)

/-- Neither of the two is eligible. -/
theorem ne_of_eligible (h : Twins s q i j) (hs : s.WellFormed) (hfit : Eligible judge s q n e) :
    i.id ≠ e.item.id := by
  intro hid
  obtain ⟨e', hget, hitem, -⟩ := (pends_iff hs).mp h.first
  rw [hid] at hget
  obtain rfl := Option.some.inj (hget.symm.trans hfit.known)
  obtain ⟨e'', hother, rfl⟩ := h.second
  have hwaits := h.waits i List.mem_cons_self
  rw [← hitem] at hwaits
  exact h.distinct (hid.trans (hfit.unblocked.queued _ hwaits e'' hother (hitem ▸ h.task.symm)).symm)

/-- Both still pend when a third item has been assigned. -/
theorem assign (h : Twins s q i j) (hs : s.WellFormed) (hfit : Eligible judge s q n e) :
    Twins (s.assign q n e) q i j where
  first := h.first.assign hs hfit (h.ne_of_eligible hs hfit)
  second := h.second.assign hs hfit (h.symm.ne_of_eligible hs hfit)
  distinct := h.distinct
  task := h.task
  waits := h.waits

/-- Neither of the two is ever assigned, whatever else is. -/
theorem not_made (h : Twins s q i j) (hs : s.WellFormed) (hassigns : Assigns judge q s moments t) :
    i.id ∉ moments.map Moment.id := by
  induction hassigns with
  | stop => exact List.not_mem_nil
  | next halike hfit _ ih =>
      have hcalm := hs.alike halike
      have htwins : Twins _ q i j :=
        ⟨h.first.alike halike, h.second.alike halike, h.distinct, h.task, h.waits⟩
      rw [List.map_cons, List.mem_cons, not_or]
      exact ⟨htwins.ne_of_eligible hcalm hfit, ih (htwins.assign hcalm hfit) (hcalm.assign _ hfit.pending)⟩

end Twins

end Twins

section Changes

/-- Where no judge is heard, only items are building that were. -/
theorem Effects.building_of_silent (hs : s.WellFormed) (h : Effects ∅ s t) {e' : Entrant}
    (he' : t.get? item = some e') (hb : e'.state.isBuilding = true) :
    ∃ e, s.get? item = some e ∧ e.state.isBuilding = true := by
  induction h generalizing e' with
  | refl => exact ⟨e', he', hb⟩
  | @tail u t hsu hut ih =>
      cases hut.origin (hs.effects hsu) he' with
      | entered hstate _ => rw [hstate] at hb; cases hb
      | stayed he hstays => exact ih he (hstays.building hb)
      | assigned hjudge => exact absurd hjudge (Set.notMem_empty _)

/-- A pending item that is building after a change has been assigned in a round of matching. -/
theorem Change.made_of_building (hs : s.WellFormed) (h : Change reported s t) (he : s.get? item = some e)
    (hpending : e.state = .pending) {e' : Entrant} (he' : t.get? item = some e')
    (hb : e'.state.isBuilding = true) : ∃ judge, item.id ∈ (matchItems judge item.queue s).made := by
  have hidle : e.state.isBuilding = false := by rw [hpending]; rfl
  by_cases hround : ∃ judge q, t = s.published judge q
  · obtain ⟨judge, q, rfl⟩ := hround
    rcases get?_published hs judge q item with ⟨rfl, hmade, -⟩ | ⟨-, hsame⟩
    · exact ⟨judge, hmade⟩
    · obtain rfl := Option.some.inj ((hsame.symm.trans he').symm.trans he)
      rw [hidle] at hb
      cases hb
  · have hsilent : Effects ∅ s t := h.effects_of hs fun judge q ht => absurd ⟨judge, q, ht⟩ hround
    obtain ⟨e₀, he₀, hb₀⟩ := Effects.building_of_silent hs hsilent he' hb
    obtain rfl := Option.some.inj (he.symm.trans he₀)
    rw [hidle] at hb₀
    cases hb₀

/-- The work is that of an item of the queue that was cancelled. -/
def Withdrawn (s : Scheduler) (q : Nat) (i : Item) : Prop := ∃ e, s.get? ⟨q, i.id⟩ = some e ∧ e.state = .cancelled

/-- A cancelled item stays cancelled. -/
theorem Withdrawn.changes (hs : s.WellFormed) (hi : s.Withdrawn q i) (h : Changes reported s t) :
    t.Withdrawn q i := by
  obtain ⟨e, he, hstate⟩ := hi
  obtain ⟨e', he', hevolves⟩ := h.evolves hs he
  exact ⟨e', he', (hevolves.state.of_final (by rw [hstate]; rfl)).trans hstate⟩

namespace Twins

/-- After a change the first of the two is still pending, or it has been cancelled. -/
theorem change_first (h : Twins s q i j) (hs : s.WellFormed) (hst : Change reported s t) :
    t.Pends q i ∨ t.Withdrawn q i := by
  obtain ⟨e, he, hitem, hpending⟩ := (pends_iff hs).mp h.first
  obtain ⟨e', he', hfate⟩ := hst.fate hs he
  have hidle : e.state.isBuilding = false := by rw [hpending]; rfl
  have hpends (hstate : e'.state = .pending) : t.Pends q i :=
    (pends_iff (hs.effects (hst.effects hs))).mpr ⟨e', he', hfate.evolves.item.trans hitem, hstate⟩
  cases hfate with
  | spared watchers => exact .inl (hpends hpending)
  | assigned a _ =>
      obtain ⟨judge, hmade⟩ := hst.made_of_building hs he hpending he' rfl
      rw [matchItems_made] at hmade
      exact absurd hmade (h.not_made hs (matchItems_assigns hs judge q))
  | cancelled _ => exact .inr ⟨_, he', rfl⟩
  | started _ hb => rw [hidle] at hb; cases hb
  | completed _ hb => rw [hidle] at hb; cases hb

/-- After any number of changes both are still pending, or one of them has been cancelled. -/
theorem changes (h : Twins s q i j) (hs : s.WellFormed) (hst : Changes reported s t) :
    Twins t q i j ∨ ∃ k ∈ [i, j], t.Withdrawn q k := by
  refine hst.preserve (P := fun u => Twins u q i j ∨ ∃ k ∈ [i, j], u.Withdrawn q k) (fun hu hP hchange => ?_) hs
    (.inl h)
  rcases hP with htwins | ⟨k, hk, hwithdrawn⟩
  · rcases htwins.change_first hu hchange with hfirst | hfirst
    · rcases htwins.symm.change_first hu hchange with hsecond | hsecond
      · exact .inl ⟨hfirst, hsecond, h.distinct, h.task, h.waits⟩
      · exact .inr ⟨j, by simp, hsecond⟩
    · exact .inr ⟨i, by simp, hfirst⟩
  · exact .inr ⟨k, hk, hwithdrawn.changes hu (.single hchange)⟩

end Twins

end Changes

section Matching

/-- What a round of matching does: it assigns none but items that are alone in waiting for their task, at least one
of them if there is any, and without a fault of a listener it returns what it assigned. These items alone are
building when listeners are told, and in the end if listeners only listen. -/
structure FreesAlone (judge : Judge) (q : Nat) (s : Scheduler) : Prop where
  faultless : (matchItems judge q s).fault = none
  alone : ∀ id ∈ (matchItems judge q s).made, ∃ e ∈ (s.queue q).pendingEntrants, e.item.id = id ∧ s.Alone q e
  some : (matchItems judge q s).made ≠ [] ↔ ∃ e ∈ (s.queue q).pendingEntrants, s.Alone q e
  building : ((s.published judge q).queue q).building = (matchItems judge q s).made
  returns : ∀ xs t result, (s.maintain judge q).Course xs t result → firstFault xs = none →
    result = .ok (matchItems judge q s).made ∧
      ((∀ x ∈ xs, Alike x.told x.back) → (t.queue q).building = (matchItems judge q s).made)

namespace AwaitsItself

/-- No outside party has a say in what is assigned. -/
theorem builtIn (h : s.AwaitsItself q) : s.BuiltIn q := by
  intro e he b hb
  rw [h.blockers e he, List.mem_singleton] at hb
  rw [hb]
  rfl

/-- An item that is not alone has a twin. -/
theorem twins (h : s.AwaitsItself q) (he : e ∈ (s.queue q).pendingEntrants) (hnot : ¬ s.Alone q e) :
    ∃ e' ∈ (s.queue q).pendingEntrants, Twins s q e.item e'.item := by
  simp only [Alone, not_forall] at hnot
  obtain ⟨e', he', htask, hid⟩ := hnot
  refine ⟨e', he', ⟨⟨e, he, rfl⟩, ⟨e', he', rfl⟩, fun heq => hid heq.symm, htask.symm, fun k hk => ?_⟩⟩
  rcases List.mem_pair.mp hk with rfl | rfl
  · rw [h.blockers e he]
    exact List.mem_singleton_self _
  · rw [h.blockers e' he']
    exact List.mem_singleton_self _

/-- Only an item that is alone is assigned. -/
theorem alone_of_made (h : s.AwaitsItself q) (hs : s.WellFormed) {id : Nat} (hid : id ∈ (matchItems judge q s).made) :
    ∃ e ∈ (s.queue q).pendingEntrants, e.item.id = id ∧ s.Alone q e := by
  obtain ⟨e, -, hget, hpending, -⟩ := (matchItems_placed hs judge q).assigned id hid
  obtain rfl := (hs.queues q).numbered hget
  have he : e ∈ (s.queue q).pendingEntrants :=
    (hs.queues q).mem_pendingEntrants.mpr ⟨hget, ((hs.queues q).pending_iff hget).mpr hpending⟩
  refine ⟨e, he, rfl, by_contra fun hnot => ?_⟩
  obtain ⟨e', -, htwins⟩ := h.twins he hnot
  rw [matchItems_made] at hid
  exact htwins.not_made hs (matchItems_assigns hs judge q) hid

/-- Nothing holds an item back that is alone. -/
theorem not_held (h : s.AwaitsItself q) (he : e ∈ (s.queue q).pendingEntrants) (halone : s.Alone q e) {r : String} :
    ¬ Answered judge s q ⟨q, e.item.id⟩ e.item.blockers (.held r) := by
  rintro ⟨before, b, after, hbs, -, t, halike, hheld⟩
  have hb : b ∈ e.item.blockers := by rw [hbs]; exact List.mem_append_right _ List.mem_cons_self
  rw [h.blockers e he, List.mem_singleton] at hb
  have hne : b.verdict judge t q ⟨q, e.item.id⟩ ≠ .free := by rw [hheld]; nofun
  rw [hb, verdict_task_ne_free, halike.queue] at hne
  rcases hne with hbuilding | ⟨-, hqueued⟩
  · simp [Queue.isTaskBuilding, Queue.buildingEntrants, h.quiet] at hbuilding
  · obtain ⟨e', he', hother⟩ := List.any_eq_true.mp hqueued
    simp only [Bool.and_eq_true, beq_iff_eq, bne_iff_ne, ne_eq, Option.some.injEq] at hother
    exact hother.2 (halone e' he' hother.1)

/-- Something is assigned where some item is alone. -/
theorem made_ne_nil (h : s.AwaitsItself q) (hs : s.WellFormed) (hfault : (matchItems judge q s).fault = none)
    (he : e ∈ (s.queue q).pendingEntrants) (halone : s.Alone q e) : (matchItems judge q s).made ≠ [] := by
  intro hnone
  have halike := matchItems_alike hs hnone
  obtain ⟨n, hn, hmeets⟩ := h.fits e he
  have hrefused := (matchItems_exhausted hs judge q).refused hfault n (halike.pool ▸ hn) (h.idle n hn) e
    (halike.queue q ▸ he)
  rcases hrefused.alike halike.symm with ⟨r, hheld⟩ | ⟨-, hnot⟩
  · exact h.not_held he halone hheld
  · rw [hmeets] at hnot
    cases hnot

/-- Where all items wait for their own task, only those are let go that are alone. -/
theorem freesAlone (h : s.AwaitsItself q) (hs : s.WellFormed) (judge : Judge) : FreesAlone judge q s := by
  obtain ⟨count, -, hpasses⟩ := matchItems_passes hs judge q
  have hfault := (hpasses.first hs h.builtIn).2.1
  have hbuilding : ((s.published judge q).queue q).building = (matchItems judge q s).made := by
    rw [(published_promised judge q s).building q, (matchItems_placed hs judge q).building, h.quiet, List.nil_append]
  exact
    { faultless := hfault
      alone := fun id hid => h.alone_of_made hs hid
      some := by
        refine ⟨fun hne => ?_, fun ⟨e, he, halone⟩ => h.made_ne_nil hs hfault he halone⟩
        obtain ⟨id, hid⟩ := List.exists_mem_of_ne_nil _ hne
        obtain ⟨e, he, -, halone⟩ := h.alone_of_made hs hid
        exact ⟨e, he, halone⟩
      building := hbuilding
      returns := fun xs t result hcourse hquiet => by
        have hmaintained := maintain_course hcourse
        refine ⟨by rw [hmaintained.result, hquiet, hfault]; rfl, fun hlisten => ?_⟩
        rw [(hmaintained.quiet hlisten).queue q, hbuilding] }

end AwaitsItself

end Matching

end Scheduler

/-- In every run: two pending items of one task that both wait for the task to leave the queue are never assigned,
whatever happens, until one of them is cancelled. Hence if nothing is building, all nodes are idle, and each pending
item waits for nothing but its own task, with a label that some node satisfies, then matching assigns something
exactly if some task has a single pending item, and each of the other items has such a twin. -/
theorem Config.run_awaitsItself (moves : List Move) (q : Nat) :
    let s := (run moves).state
    (∀ i j, s.Twins q i j → ∀ later,
      let t := (run (moves ++ later)).state
      t.Twins q i j ∨ ∃ k ∈ [i, j], t.Withdrawn q k) ∧
    (s.AwaitsItself q → (∀ judge, FreesAlone judge q s) ∧
      ∀ e ∈ (s.queue q).pendingEntrants, ¬ s.Alone q e →
        ∃ e' ∈ (s.queue q).pendingEntrants, s.Twins q e.item e'.item) := by
  intro s
  have hs : s.WellFormed := run_wellFormed moves
  refine ⟨fun i j htwins later => htwins.changes hs (run_append_changes moves later), fun hawaits => ?_⟩
  exact ⟨hawaits.freesAlone hs, fun e he hnot => hawaits.twins he hnot⟩

/-- Two items of one task and a third one of another task wait for their own tasks when a node is registered, and the
queue does not hear of it since a party before it fails. Matching lets the third item go, and the other two wait for
each other from then on. -/
theorem Config.run_awaitsItself_two_and_one :
    let moves : List Move :=
      [.ask .lenient (.addSubscriber 0), .ask .lenient (.openQueue []),
        .ask .lenient (.submit 0 (.plain .none) "t" [.task "t" true]),
        .ask .lenient (.submit 0 (.plain .none) "t" [.task "t" true]),
        .ask .lenient (.submit 0 (.plain .none) "u" [.task "u" true]),
        .ask .lenient (.register "n" (.parts [])), .answer (some (.outside "RuntimeError" "party"))]
    let s := (run moves).state
    s.AwaitsItself 0 ∧ (∀ judge, FreesAlone judge 0 s) ∧ (matchItems .lenient 0 s).made = [3] ∧
      ∃ i j, i.id = 1 ∧ j.id = 2 ∧ s.Twins 0 i j ∧ ∀ later,
        let t := (run (moves ++ later)).state
        t.Twins 0 i j ∨ ∃ k ∈ [i, j], t.Withdrawn 0 k := by
  intro moves s
  have hawaits : s.AwaitsItself 0 := ⟨by decide, by decide, by decide, by decide⟩
  obtain ⟨hwait, hmatch⟩ := run_awaitsItself moves 0
  let work (id : Nat) : Item := ⟨id, ⟨"t", by decide⟩, none, [.task "t" true]⟩
  have hpends (id : Nat) (h : ∃ e ∈ (s.queue 0).pendingEntrants, e.item = work id) : s.Pends 0 (work id) := h
  have htwins : s.Twins 0 (work 1) (work 2) :=
    ⟨hpends 1 (by decide), hpends 2 (by decide), by decide, rfl, by decide⟩
  exact ⟨hawaits, (hmatch hawaits).1, by decide, _, _, rfl, rfl, htwins, hwait _ _ htwins⟩

/-- Two items of one task wait for their own task when a node is registered: nothing is building, the node is idle
and satisfies their labels, and matching the queue again leaves it like this. -/
theorem Config.run_awaitsItself_deadlock :
    let moves : List Move :=
      [.ask .lenient (.openQueue []), .ask .lenient (.submit 0 (.plain .none) "t" [.task "t" true]),
        .ask .lenient (.submit 0 (.plain .none) "t" [.task "t" true]), .ask .lenient (.register "n" (.parts []))]
    let s := (run moves).state
    s.AwaitsItself 0 ∧ (s.queue 0).pending = [1, 2] ∧
      ∃ t, s.maintain .lenient 0 = .done t (.ok []) ∧ (t.queue 0).pending = [1, 2] ∧ (t.queue 0).building = [] := by
  intro moves s
  exact ⟨⟨by decide, by decide, by decide, by decide⟩, by decide, _, rfl, by decide, by decide⟩

end LabelScheduler
