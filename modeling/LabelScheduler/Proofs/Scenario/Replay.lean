import LabelScheduler.Proofs.Scheduler.Exclusive
import LabelScheduler.Proofs.Scheduler.Steady
import LabelScheduler.Scenario.Replay
import Mathlib.Data.List.Perm.Subperm

/-!
# How replays end

A replay submits its jobs and then completes what is building, until nothing is. Each completion leaves one
item less to be finished, so the completions end. The blockers of jobs hold items back only while something is
building, whatever they wait for; in the end they let every item go, and since matching leaves nothing behind
that can go, the items that are pending then are those whose labels no node satisfies.
-/

namespace LabelScheduler

/-! ### Submitting the jobs -/

namespace JobSpec

variable {j : JobSpec}

/-- The label that a job asks for: none if its text is blank. -/
def wanted (j : JobSpec) : Option Label :=
  if Text.isBlankText j.label then none else (parseLabel j.label).toOption

/-- The task has no mark, the label is blank or can be read, and what the job comes after is nothing or a run.
-/
structure Sound (j : JobSpec) : Prop where
  task : '#' ∉ j.task.toList
  label : Text.isBlankText j.label = true ∨ ∃ e, parseLabel j.label = .ok e
  after : ∀ id, j.after = some id → id.isEmpty = true ∨ ∃ r, RunReference.ofId id = .ok r

/-- A job in order has blockers, which are brief. -/
theorem Sound.blockers (h : j.Sound) : ∃ bs, j.blockers = .ok bs ∧ ∀ b ∈ bs, b.isBrief = true := by
  unfold JobSpec.blockers
  extract_lets first
  have hfirst : ∀ b ∈ first, b.isBrief = true := by
    unfold first
    split
    · split
      · exact fun b hb => absurd hb List.not_mem_nil
      · exact List.forall_mem_singleton.mpr rfl
    · exact fun b hb => absurd hb List.not_mem_nil
  split
  · exact ⟨first, rfl, hfirst⟩
  · rename_i id hafter
    split
    · exact ⟨first, rfl, hfirst⟩
    · rename_i hnonempty
      obtain ⟨r, hr⟩ := (h.after id hafter).resolve_left hnonempty
      refine ⟨first ++ [.run r], by rw [hr], List.forall_mem_append.mpr ⟨hfirst, ?_⟩⟩
      exact List.forall_mem_singleton.mpr rfl

end JobSpec

namespace Scheduler

variable {s t u : Scheduler} {nodes : List (String × List String)} {j : JobSpec}

/-- Reading the label of a job in order gives the label that it asks for. -/
theorem readLabel_of_sound (s : Scheduler) (h : j.Sound) :
    (s.readLabel (.plain (.text j.label))).2 = .ok j.wanted := by
  unfold readLabel JobSpec.wanted
  by_cases hblank : Text.isBlankText j.label = true
  · simp only [hblank, if_true]
  · obtain ⟨e, he⟩ := h.label.resolve_left hblank
    have hread : (s.parse j.label).2 = .ok e := by
      change (parseLabel j.label).mapError _ = _
      rw [he]
      rfl
    simp only [hblank, hread, he]
    rfl

/-- Reading a label keeps things steady. -/
theorem Steady.readLabel (h : Steady nodes s) (p : Part) : Steady nodes (s.readLabel p).1 := by
  rcases readLabel_cases s p with heq | ⟨text, heq⟩
  · rwa [heq]
  · exact heq ▸ (h.alike (.logAll s (s.pool.registry.parseLiteralEvents (.text text)))).read _

/-- A text without the mark names a task; an empty one stands for a name made from the number. -/
theorem taskNamed_isSome {task : String} (h : '#' ∉ task.toList) (id : Nat) :
    ∃ name, taskNamed task id = some name := by
  have hdefault : '#' ∉ (defaultTask id).toList := by
    have hdigits : '#' ∉ (toString id).toList := by
      intro hmem
      rw [Nat.toString_eq_repr, Nat.toList_repr] at hmem
      exact absurd (Nat.isDigit_of_mem_toDigits (by decide) (by decide) hmem) (by decide)
    simpa [defaultTask] using hdigits
  have hname : isTaskName (if task.isEmpty then defaultTask id else task) = true := by
    unfold isTaskName
    split
    case isTrue => simpa [defaultTask] using hdefault
    case isFalse hnonempty => simpa [h] using hnonempty
  exact ⟨_, dif_pos hname⟩

/-- Submitting a job in order adds an item with the label that the job asks for. -/
theorem Steady.submit (h : Steady nodes s) (hs : s.WellFormed) (hj : j.Sound) {bs : List Blocker}
    (hbs : ∀ b ∈ bs, b.isBrief = true) :
    ∃ t item, (s.submit .lenient 0 (.plain (.text j.label)) j.task bs).playSilent = (t, .ok item) ∧
      Proceeds nodes s t ∧ item.queue = 0 ∧ ∃ e, t.get? item = some e ∧ e.item.label = j.wanted := by
  have hlabel := s.readLabel_of_sound hj
  have hsteady := h.readLabel (.plain (.text j.label))
  have hquiet := Quietly.readLabel s (.plain (.text j.label))
  have heffects : Effects {.lenient} s _ := (readLabel_milds s (.plain (.text j.label))).effects
  unfold Scheduler.submit
  generalize s.readLabel (.plain (.text j.label)) = r at hlabel hsteady hquiet heffects ⊢
  obtain ⟨s₁, result⟩ := r
  obtain rfl : result = .ok j.wanted := hlabel
  obtain ⟨name, hname⟩ := taskNamed_isSome hj.task (s₁.queue 0).nextId
  simp only [hname]
  let item : Item := ⟨(s₁.queue 0).nextId, name, j.wanted, bs⟩
  have hentered : Steady nodes (s₁.withQueue 0 (·.add item)) := hsteady.enter hbs
  have hadded : (s₁.withQueue 0 (·.add item)).get? ⟨0, item.id⟩ = some (.fresh item) := by
    rw [get?, queue_withQueue_self hsteady.isOpen, Queue.get?_add, if_pos rfl]
  have hlog := Alike.log (s₁.withQueue 0 (·.add item)) (.itemSubmitted item.id name.text item.labelName)
  have henter : Effects {.lenient} s _ := heffects.trans (.head (.enter (i := item) rfl) (.single (.note hlog)))
  have hproceeds := (hentered.alike hlog).proceeds hs henter (hquiet.trans (.log _ rfl))
  rw [(hentered.alike hlog).maintain (hs.effects henter)]
  obtain ⟨e, he, hitem⟩ := (Grows.published (hs.effects henter) .lenient 0).items
    ((hlog.get? _).trans hadded)
  exact ⟨_, ⟨0, item.id⟩, rfl, hproceeds, rfl, e, he, congrArg Item.label hitem⟩

/-- Submitting jobs in order adds an item for each of them, with the label that the job asks for. -/
theorem Steady.submitAll {jobs : List JobSpec} (h : Steady nodes s) (hs : s.WellFormed) (hserved : s.Served 0)
    (hjobs : ∀ j ∈ jobs, j.Sound) :
    ∃ t items, JobSpec.submitAll 0 jobs s = (t, .ok items) ∧ Proceeds nodes s t ∧
      List.Forall₂ (fun j item => item.queue = 0 ∧ ∃ e, t.get? item = some e ∧ e.item.label = j.wanted)
        jobs items := by
  induction jobs generalizing s with
  | nil => exact ⟨s, [], rfl, .refl h hserved, .nil⟩
  | cons j jobs ih =>
      obtain ⟨hj, hjobs⟩ := List.forall_mem_cons.mp hjobs
      obtain ⟨bs, hbs, hbrief⟩ := hj.blockers
      obtain ⟨t, item, hsubmit, hproceeds, hzero, e, he, hlabel⟩ := h.submit hs hj hbrief
      obtain ⟨u, items, hsubmitAll, hlater, hitems⟩ :=
        ih hproceeds.steady (hs.effects hproceeds.effects) hproceeds.served hjobs
      refine ⟨u, item :: items, by simp only [JobSpec.submitAll, hbs, hsubmit, hsubmitAll]; rfl,
        hproceeds.trans hlater, .cons ?_ hitems⟩
      obtain ⟨e', he', hitem⟩ := (Grows.effects hlater.effects).items he
      exact ⟨hzero, e', he', hitem ▸ hlabel⟩

end Scheduler

/-! ### Completing what is building -/

/-- How many items are pending or building. -/
def Queue.unfinished (q : Queue) : Nat := q.pending.length + q.building.length

/-- There are not more of them than there are items. -/
theorem Queue.Orderly.unfinished_le {q : Queue} (h : q.Orderly) : q.unfinished ≤ q.entrants.length := by
  have hnodup : (q.pending ++ q.building).Nodup := by
    refine List.nodup_append.mpr ⟨h.pending_nodup, h.distinct, ?_⟩
    rintro i hi j hj rfl
    exact h.not_building_of_pending hi hj
  have hsub : q.pending ++ q.building ⊆ List.range' 1 q.entrants.length := by
    intro i hi
    obtain ⟨e, he⟩ := h.known (List.mem_append.mp hi)
    have hpos := pos_of_get? he
    obtain ⟨k, rfl⟩ : ∃ k, i = k + 1 := ⟨i - 1, by omega⟩
    have hlt := (List.getElem?_eq_some_iff.mp he).1
    exact List.mem_range'_1.mpr ⟨by omega, by omega⟩
  simpa [unfinished] using (List.subperm_of_subset hnodup hsub).length_le

namespace Scheduler

variable {s t u : Scheduler} {nodes : List (String × List String)} {e : Entrant} {jobs : List JobSpec}

/-- Matching and keeping the promises finishes nothing. -/
theorem unfinished_published (hs : s.WellFormed) (judge : Judge) (q : Nat) :
    ((s.published judge q).queue q).unfinished = (s.queue q).unfinished := by
  have hkept := (Narrows.keepPromises q (matchItems judge q s).made (matchItems judge q s).state).sight q
  have hsame : ((s.published judge q).queue q).unfinished = ((matchItems judge q s).state.queue q).unfinished :=
    congrArg₂ (·.length + ·.length) hkept.pending hkept.building
  refine hsame.trans ?_
  refine (matchItems_assigns hs judge q).preserve
    (P := fun u => (u.queue q).unfinished = (s.queue q).unfinished) (fun hst hu => hst.queue q ▸ hu) ?_ rfl
  intro u n e hfit hu
  rw [← hu]
  have hassigned : (u.assign q n e).queue q = (u.queue q).assign e.item.id
      ⟨n.name, n.serial, (u.queue q).nextRun e.item.task⟩ := queue_withQueue_self (lt_of_mem (.inl hfit.pending)) _
  have hlength := List.length_erase_add_one hfit.pending
  rw [hassigned]
  simp only [Queue.unfinished, Queue.assign, Queue.update, List.length_append, List.length_singleton]
  omega

/-- Completing an item that is building leaves one item less to be finished. -/
theorem Steady.completed (h : Steady nodes s) (hs : s.WellFormed) {id : Nat} (hmem : id ∈ (s.queue 0).building) :
    ∃ t, (s.completed .lenient 0 ⟨0, id⟩).playSilent = (t, .ok ()) ∧ Proceeds nodes s t ∧
      (t.queue 0).unfinished + 1 = (s.queue 0).unfinished := by
  have hbuilding : s.isBuildingIn 0 ⟨0, id⟩ = true := by simpa [isBuildingIn] using hmem
  have hlog := Alike.log (s.conclude 0 ⟨0, id⟩) (.itemCompleted id ((s.get? ⟨0, id⟩).bind Entrant.node))
  have hconcluded := (h.conclude hs hbuilding).alike hlog
  have heffects : Effects {.lenient} s _ := .head (.complete hbuilding) (.single (.note hlog))
  refine ⟨_, ?_, hconcluded.proceeds hs heffects ((Quietly.conclude s 0 ⟨0, id⟩).trans (.log _ rfl)), ?_⟩
  · have hmaintain := hconcluded.maintain (hs.effects heffects) .lenient
    unfold Scheduler.completed
    rw [if_pos hbuilding]
    exact congrArg (fun d => (d.returning fun _ => ()).playSilent) hmaintain
  · have hqueue : ((s.conclude 0 ⟨0, id⟩).queue 0) = (s.queue 0).complete id :=
      ((conclude_alike s 0 ⟨0, id⟩).queue 0).trans (queue_withQueue_self h.isOpen _)
    have hlength := List.length_erase_add_one hmem
    rw [unfinished_published (hs.effects heffects), hlog.queue, hqueue]
    simp only [Queue.unfinished, Queue.complete, Queue.update]
    omega

/-- If as many items may be completed as there are to be finished, nothing is building in the end. -/
theorem Steady.drain (h : Steady nodes s) (hs : s.WellFormed) (hserved : s.Served 0) {limit : Nat}
    (hlimit : (s.queue 0).unfinished ≤ limit) :
    ∃ t, s.drain 0 limit = (t, .ok ()) ∧ Proceeds nodes s t ∧ (t.queue 0).building = [] := by
  -- what is left to be finished becomes less with each completion, since matching finishes nothing
  induction limit generalizing s with
  | zero =>
      rw [Queue.unfinished] at hlimit
      exact ⟨s, rfl, .refl h hserved, List.length_eq_zero_iff.mp (by omega)⟩
  | succ limit ih =>
      unfold Scheduler.drain
      cases hbuilding : (s.queue 0).building with
      | nil => exact ⟨s, rfl, .refl h hserved, hbuilding⟩
      | cons id ids =>
          obtain ⟨t, hcompleted, hproceeds, hless⟩ := h.completed hs (hbuilding ▸ List.mem_cons_self)
          obtain ⟨u, hdrain, hlater, hend⟩ :=
            ih hproceeds.steady (hs.effects hproceeds.effects) hproceeds.served (by omega)
          simp only [hcompleted, hdrain]
          exact ⟨u, rfl, hproceeds.trans hlater, hend⟩

end Scheduler

/-! ### When nothing is building -/

/-- A brief blocker lets everything go while nothing is building. -/
theorem Blocker.free_of_isBrief {b : Blocker} (hb : b.isBrief = true) {s : Scheduler} {q : Nat}
    (hnone : (s.queue q).building = []) (judge : Judge) (item : ItemRef) : b.verdict judge s q item = .free := by
  have hentrants : (s.queue q).buildingEntrants = [] := by rw [Queue.buildingEntrants, hnone, List.filterMap_nil]
  cases b with
  | task name queued =>
      have hqueued : queued = false := by simpa [isBrief] using hb
      simp [verdict, Queue.isTaskBuilding, hentrants, hqueued]
  | run r => simp [verdict, Queue.isRunBuilding, hentrants]
  | item awaited => cases hb
  | party p => cases hb

/-- What is noted of an item that is still pending because no node satisfies its label. -/
def Entrant.noNodes (e : Entrant) : Event :=
  .stillPending e.item.text ("There are no nodes with the label '" ++ e.item.labelName.getD "any node" ++ "'")

namespace Scheduler

variable {s t u : Scheduler} {nodes : List (String × List String)} {e : Entrant} {jobs : List JobSpec}

/-- While nothing is building, asking brief blockers leaves everything as it is, and they let the item go. -/
theorem ask_of_isBrief {q : Nat} {bs : List Blocker} (hbs : ∀ b ∈ bs, b.isBrief = true)
    (hnone : (s.queue q).building = []) (judge : Judge) (item : ItemRef) : s.ask judge q item bs = (s, .free) := by
  induction bs with
  | nil => rfl
  | cons b bs ih =>
      obtain ⟨hb, hbs⟩ := List.forall_mem_cons.mp hbs
      have hcontact : b.contact item = [] := by
        cases b with
        | party p => cases hb
        | _ => rfl
      simp only [ask, hcontact, List.foldl_nil, Blocker.free_of_isBrief hb hnone, ih hbs]

/-- The item is pending with brief blockers, and no node satisfies its label. -/
structure Stranded (s : Scheduler) (e : Entrant) : Prop where
  pending : e.state = .pending
  brief : ∀ b ∈ e.item.blockers, b.isBrief = true
  unmet : ∀ n ∈ s.pool.nodes, n.meets e.item.label = false

/-- While nothing is building, it is noted of stranded items that no node satisfies their label, and nothing
else happens. -/
theorem explainPending_eq (hnone : (s.queue 0).building = []) {ids : List Nat}
    (hids : ∀ id ∈ ids, ∃ e, s.get? ⟨0, id⟩ = some e ∧ s.Stranded e) :
    explainPending 0 ids s = (s.logAll ((ids.filterMap (s.queue 0).get?).map Entrant.noNodes), .ok ()) := by
  induction ids generalizing s with
  | nil => rfl
  | cons id ids ih =>
      obtain ⟨⟨e, he, hstranded⟩, hids⟩ := List.forall_mem_cons.mp hids
      have hget : (s.queue 0).get? id = some e := he
      have hmatching : (s.pool.matching e.item.label).isEmpty = true := by
        simpa [Pool.matching] using hstranded.unmet
      have hwhy : s.whyPending .lenient 0 ⟨0, id⟩ =
          (s, .ok (some ("There are no nodes with the label '" ++ e.item.labelName.getD "any node" ++ "'"))) := by
        simp only [whyPending, he, hstranded.pending, ask_of_isBrief hstranded.brief hnone, hmatching]
        rfl
      have hrest := ih (s := s.log e.noNodes) hnone fun i hi => by
        obtain ⟨e', he', hstranded'⟩ := hids i hi
        exact ⟨e', he', hstranded'.pending, hstranded'.brief, hstranded'.unmet⟩
      rw [explainPending, hwhy]
      simp only [he, Option.map_some, Option.getD_some, List.filterMap_cons_some hget]
      exact hrest

/-- What is known when a replay over nodes of these descriptions has nothing more to complete. -/
structure Finished (nodes : List (String × List String)) (s : Scheduler) : Prop where
  wellFormed : s.WellFormed
  steady : Steady nodes s
  attached : s.Attached
  served : s.Served 0
  completed : (s.queue 0).building = []

namespace Finished

/-- All nodes are idle and hold nothing, since what a node holds is building. -/
theorem idle (h : Finished nodes s) : ∀ n ∈ s.pool.nodes, n.state = .idle ∧ n.holds = none := by
  intro n hn
  have hholds : n.holds = none := by
    rw [Option.eq_none_iff_forall_ne_some]
    intro i hi
    have hbuilding := (h.attached n hn i hi).building
    rw [h.completed] at hbuilding
    exact List.not_mem_nil hbuilding
  cases hstate : n.state with
  | idle => exact ⟨rfl, hholds⟩
  | busy => exact absurd hholds (h.steady.busy n hn hstate)

/-- An item is completed or pending, and it is pending exactly if no node satisfies its label: its blockers
let it go, and nothing that can go is left behind. -/
theorem ended (h : Finished nodes s) {id : Nat} (he : s.get? ⟨0, id⟩ = some e) :
    (e.state = .completed ∨ e.state = .pending) ∧
      (e.state = .pending ↔ ∀ n ∈ s.pool.nodes, n.meets e.item.label = false) := by
  have hqueue := h.wellFormed.queues 0
  have hregular := h.steady.regular he
  refine ⟨?_, fun hpending n hn => ?_, fun hunmet => ?_⟩
  · rcases h.wellFormed.placed he with ⟨-, -, hstate⟩ | ⟨-, hbuilding, -⟩ | ⟨-, -, hstate⟩
    · exact .inr hstate
    · rw [h.completed] at hbuilding
      exact absurd hbuilding List.not_mem_nil
    · exact .inl (hstate.resolve_right hregular.live)
  · have hid := hqueue.numbered he
    have hmem : e ∈ (s.queue 0).pendingEntrants :=
      hqueue.mem_pendingEntrants.mpr ⟨hid ▸ he, hid ▸ (hqueue.pending_iff he).mpr hpending⟩
    exact h.served .lenient n hn (h.idle n hn).1 e hmem fun b hb =>
      Blocker.free_of_isBrief (hregular.brief b hb) h.completed _ _
  · by_contra hstate
    obtain ⟨d, hd, hmeets⟩ := hregular.met hstate
    rw [← h.steady.described] at hd
    obtain ⟨n, hn, rfl⟩ := List.mem_map.mp hd
    exact absurd hmeets (Bool.eq_false_iff.mp (hunmet n hn))

/-- What is noted of the pending items is that no node satisfies their labels. -/
theorem explainPending (h : Finished nodes s) :
    explainPending 0 (s.queue 0).pending s =
      (s.logAll ((s.queue 0).pendingEntrants.map Entrant.noNodes), .ok ()) := by
  refine explainPending_eq h.completed fun id hid => ?_
  obtain ⟨e, he⟩ := (h.wellFormed.queues 0).known (.inl hid)
  have hpending := ((h.wellFormed.queues 0).pending_iff he).mp hid
  exact ⟨e, he, hpending, (h.steady.regular he).brief, (h.ended he).2.mp hpending⟩

end Finished

end Scheduler

/-! ### Replays as a whole -/

namespace Scheduler

variable {s t : Scheduler} {jobs : List JobSpec} {items : List ItemRef}

/-- Nodes have been registered, all of them are idle, and nobody has done anything else. -/
structure Fresh (s : Scheduler) : Prop where
  reached : Effects {.lenient} .empty s
  closed : s.queues = []
  unheard : s.pool.subscribers = []
  idle : ∀ n ∈ s.pool.nodes, n.state = .idle

/-- Nothing has been done at all. -/
protected theorem Fresh.empty : Fresh .empty := ⟨.refl, rfl, rfl, fun _ hn => absurd hn List.not_mem_nil⟩

/-- A registry may be put in place. -/
theorem Fresh.withRegistry (h : Fresh s) (r : Registry) : Fresh (s.withRegistry r) := by
  have hnoted := Alike.logAll s (s.pool.registry.newAtoms r)
  refine ⟨h.reached.trans (withRegistry_milds s r).effects, hnoted.queues.trans h.closed, ?_, ?_⟩
  · exact (congrArg Pool.subscribers hnoted.pool).trans h.unheard
  · change ∀ n ∈ (s.logAll _).pool.nodes, n.state = .idle
    rw [hnoted.pool]
    exact h.idle

/-- Registering a node that is accepted puts it behind the others and keeps a scheduler fresh. -/
theorem Fresh.register (h : Fresh s) {name : String} {labels : NodeLabels} {n : Node}
    (hregistered : (s.register .lenient name labels).playSilent = (t, .ok n)) :
    Fresh t ∧ t.pool.nodes.map Node.name = s.pool.nodes.map Node.name ++ [name] := by
  unfold Scheduler.register at hregistered
  split at hregistered
  case h_1 => cases hregistered
  case h_2 r atoms _ =>
    have hread := h.withRegistry r
    have hnodes : (s.withRegistry r).pool.nodes = s.pool.nodes := by
      change (s.logAll (s.pool.registry.newAtoms r)).pool.nodes = s.pool.nodes
      rw [(Alike.logAll s _).pool]
    simp only at hregistered
    generalize s.withRegistry r = s₁ at hread hnodes hregistered
    split at hregistered
    case h_1 => cases hregistered
    case h_2 hname =>
      let s₂ := (s₁.withPool (·.add name atoms)).log
        (.nodeRegistered name (Node.fresh name atoms s₁.pool.enrolled).labelsText)
      have hadded : Fresh s₂ := by
        refine ⟨hread.reached.trans (.head (.join atoms hname) (.single (.note (.log _ _)))), hread.closed,
          hread.unheard, fun n hn => ?_⟩
        rcases List.mem_append.mp hn with hold | hnew
        · exact hread.idle n hold
        · rw [List.mem_singleton.mp hnew]
          rfl
      have hnamed : s₂.pool.nodes.map Node.name = s.pool.nodes.map Node.name ++ [name] := by
        rw [← hnodes]
        exact List.map_append
      have hnotified : s₂.notify .lenient (Node.fresh name atoms s₁.pool.enrolled) s₂.pool.subscribers =
          .done s₂ (.ok ()) := by
        rw [hadded.unheard]
        rfl
      rw [hnotified] at hregistered
      exact (Prod.mk.inj hregistered).1 ▸ ⟨hadded, hnamed⟩

/-- Registering nodes keeps a scheduler fresh. -/
theorem Fresh.registerAll (h : Fresh s) {specs : List (String × String)}
    (hregistered : registerAll specs s = (t, .ok ())) : Fresh t := by
  induction specs generalizing s with
  | nil => exact (Prod.mk.inj hregistered).1 ▸ h
  | cons spec specs ih =>
      unfold Scheduler.registerAll at hregistered
      split at hregistered
      case h_1 hfirst => exact ih (h.register hfirst).1 hregistered
      case h_2 => cases hregistered

/-- Opening a queue on a fresh scheduler is where a replay over its nodes begins. -/
theorem Fresh.openQueue (h : Fresh s) :
    Proceeds (s.pool.nodes.map Node.described) s (s.openQueue []) := by
  have hqueue : (s.openQueue []).queue 0 = { Queue.empty with listeners := [] } := by
    rw [queue_openQueue, h.closed]
    exact if_pos rfl
  refine ⟨.single (.openQueue []), ?_, fun _ n _ _ e he => ?_, .of_eq rfl⟩
  · refine ⟨by simp [Scheduler.openQueue, withPool, h.closed], by rw [hqueue], rfl, fun n hn hbusy => ?_, ?_⟩
    · cases hbusy.symm.trans (h.idle n hn)
    · rw [hqueue]
      exact fun e he => absurd he List.not_mem_nil
  · rw [hqueue] at he
    exact absurd he List.not_mem_nil

/-- How a replay of jobs has ended that began in the state `s`. -/
structure Replayed (s : Scheduler) (jobs : List JobSpec) (t : Scheduler) (items : List ItemRef) : Prop where
  /-- There is one queue. -/
  single : t.queues.length = 1
  /-- For every job there is an item in it, with the label that the job asks for. -/
  submitted : List.Forall₂ (fun j item => item.queue = 0 ∧ ∃ e, t.get? item = some e ∧ e.item.label = j.wanted)
    jobs items
  /-- Nothing is building. -/
  building : (t.queue 0).building = []
  /-- The nodes are those from before. -/
  nodes : t.pool.nodes.map Node.described = s.pool.nodes.map Node.described
  /-- All of them are idle and hold nothing. -/
  idle : ∀ n ∈ t.pool.nodes, n.state = .idle ∧ n.holds = none
  /-- Every item is completed or pending, and it is pending exactly if no node satisfies its label. -/
  ended : ∀ {id e}, t.get? ⟨0, id⟩ = some e → (e.state = .completed ∨ e.state = .pending) ∧
    (e.state = .pending ↔ ∀ n ∈ s.pool.nodes, n.meets e.item.label = false)
  /-- The warnings that were noted say of every pending item that no node satisfies its label; there are no
  others. -/
  warnings : ∃ events,
    t.journal = ((t.queue 0).pendingEntrants.map Entrant.noNodes).reverse ++ events ++ s.journal ∧
    ∀ event ∈ events, event.isQuiet = true

/-- If a replay that began in the state `s` has nothing more to complete, it has ended when it is noted of the
pending items why they are pending. -/
theorem Proceeds.replayed (h : Proceeds (s.pool.nodes.map Node.described) s t)
    (hfinished : Finished (s.pool.nodes.map Node.described) t)
    (hitems : List.Forall₂ (fun j item => item.queue = 0 ∧ ∃ e, t.get? item = some e ∧ e.item.label = j.wanted)
      jobs items) :
    Replayed s jobs (t.logAll ((t.queue 0).pendingEntrants.map Entrant.noNodes)) items := by
  have halike := Alike.logAll t ((t.queue 0).pendingEntrants.map Entrant.noNodes)
  have hdescribed := h.steady.described
  obtain ⟨events, hjournal, hquiet⟩ := h.quiet
  refine
    { single := halike.queues ▸ h.steady.single
      submitted := hitems.imp fun j item hitem => ?_
      building := (congrArg Queue.building (halike.queue 0)).trans hfinished.completed
      nodes := halike.pool ▸ hdescribed
      idle := halike.pool ▸ hfinished.idle
      ended := fun {id e} he => ?_
      warnings := ⟨events, ?_, hquiet⟩ }
  · rwa [halike.get?]
  · obtain ⟨hstate, hpending⟩ := hfinished.ended ((halike.get? _).symm.trans he)
    exact ⟨hstate, hpending.trans (Pool.forall_not_meets_congr hdescribed _)⟩
  · rw [journal_logAll, hjournal, halike.queue, List.append_assoc]

end Scheduler

/-- A replay of jobs in order over any nodes ends, whatever the jobs wait for. -/
theorem Scheduler.replay_replayed {nodes : List NodeSpec} {jobs : List JobSpec} {s : Scheduler}
    (hpool : poolOf nodes .empty = (s, .ok ())) (hjobs : ∀ j ∈ jobs, j.Sound) :
    ∃ t items, s.replay jobs = (t, .ok items) ∧ Replayed s jobs t items := by
  have hfresh : s.Fresh :=
    Fresh.registerAll ⟨.refl, rfl, rfl, fun n hn => absurd hn List.not_mem_nil⟩ hpool
  have hs := WellFormed.empty.effects hfresh.reached
  have hopened := hfresh.openQueue
  have hs' := hs.effects hopened.effects
  obtain ⟨t, items, hsubmitAll, hsubmitted, hitems⟩ := hopened.steady.submitAll hs' hopened.served hjobs
  have ht := hs'.effects hsubmitted.effects
  obtain ⟨u, hdrain, hdrained, hnone⟩ := hsubmitted.steady.drain ht hsubmitted.served (ht.queues 0).unfinished_le
  have hproceeds := (hopened.trans hsubmitted).trans hdrained
  have hfinished : Finished (s.pool.nodes.map Node.described) u :=
    { wellFormed := hs.effects hproceeds.effects
      steady := hproceeds.steady
      attached := Attached.effects (hfresh.reached.trans hproceeds.effects) (Nat.le_of_eq hproceeds.steady.single)
      served := hproceeds.served
      completed := hnone }
  refine ⟨_, items, ?_, hproceeds.replayed hfinished (hitems.imp fun j item hitem => ?_)⟩
  · simp only [replay, hfresh.closed, List.length_nil, hsubmitAll, hdrain, hfinished.explainPending]
  · obtain ⟨hzero, e, he, hlabel⟩ := hitem
    obtain ⟨e', he', hsame⟩ := (Grows.effects hdrained.effects).items he
    exact ⟨hzero, e', he', hsame ▸ hlabel⟩

/-- Two jobs wait for each other's tasks, one of them also for a run of the other, and another job waits for
its own task. Only the job that no node suits stays pending. -/
theorem Scheduler.replay_replayed_cycle :
    let nodes : List NodeSpec := [⟨"a", "x"⟩, ⟨"b", "y"⟩]
    let jobs : List JobSpec := [⟨"t", "x", some "u", none⟩, ⟨"u", "x || y", some "t", some "t#1"⟩,
      ⟨"v", "z", none, none⟩, ⟨"w", "", some "w", none⟩]
    let s := (poolOf nodes .empty).1
    poolOf nodes .empty = (s, .ok ()) ∧ (∀ j ∈ jobs, j.Sound) ∧
      ∃ t items, s.replay jobs = (t, .ok items) ∧ Replayed s jobs t items ∧ (t.queue 0).pending = [3] := by
  intro nodes jobs s
  have hpool : poolOf nodes .empty = (s, .ok ()) := by
    have hresult : (poolOf nodes .empty).2 = .ok () := by decide +kernel
    exact Prod.ext rfl hresult
  have hjobs : ∀ j ∈ jobs, j.Sound := by
    refine List.forall_mem_cons.mpr ⟨?_, List.forall_mem_cons.mpr ⟨?_, List.forall_mem_cons.mpr ⟨?_,
      List.forall_mem_singleton.mpr ?_⟩⟩⟩
    · exact ⟨by decide, .inr ⟨_, rfl⟩, nofun⟩
    · exact ⟨by decide, .inr ⟨_, rfl⟩, fun id hid => .inr (Option.some.inj hid ▸ ⟨_, rfl⟩)⟩
    · exact ⟨by decide, .inr ⟨_, rfl⟩, nofun⟩
    · exact ⟨by decide, .inl (by decide), nofun⟩
  have hpending : ((s.replay jobs).1.queue 0).pending = [3] := by decide +kernel
  obtain ⟨t, items, hreplay, hreplayed⟩ := replay_replayed hpool hjobs
  rw [hreplay] at hpending
  exact ⟨hpool, hjobs, t, items, hreplay, hreplayed, hpending⟩

end LabelScheduler
