import LabelScheduler.Proofs.Scheduler.Operations
import Mathlib.Data.List.Forall2

/-!
# What matching and promising change

Matching gives pending items to idle nodes, one node to each, and touches nothing else, also if a blocker fails
halfway. Keeping the promises of these items touches nothing but the promises. So the items that were not
assigned are still where they were when listeners are told, and the nodes that were not given an item are as they
were.
-/

namespace LabelScheduler

/-- One relation along a list after another one. -/
theorem forall₂_trans {α : Type} {R S T : α → α → Prop} (hT : ∀ a b c, R a b → S b c → T a c) {as bs cs : List α}
    (h : List.Forall₂ R as bs) (h' : List.Forall₂ S bs cs) : List.Forall₂ T as cs := by
  induction h generalizing cs with
  | nil =>
      cases h' with
      | nil => exact .nil
  | cons hab _ ih =>
      cases h' with
      | cons hbc hrest => exact .cons (hT _ _ _ hab hbc) (ih hrest)

namespace Queue

variable {q r : Queue} {id : Nat}

/-- Only the item that is changed is another one, whatever happens to the lists. -/
theorem get?_update_of (hentrants : r.entrants = q.entrants) (hid : 0 < id) (f : Entrant → Entrant) (j : Nat) :
    (r.update id f).get? j = if j = id then (q.get? j).map f else q.get? j := by
  rw [get?_update hid, get?_congr hentrants]

/-- Only the item that is assigned is another one. -/
theorem get?_assign (hid : 0 < id) (a : Assignment) (j : Nat) :
    (q.assign id a).get? j =
      if j = id then (q.get? j).map fun e => { e with state := .assigned, assignment := some a }
      else q.get? j :=
  get?_update_of rfl hid _ j

end Queue

namespace Scheduler

variable {judge : Judge} {judges : Set Judge} {q : Nat} {s t u : Scheduler} {made made' : List Nat}
  {item : ItemRef} {a : Assignment}

/-- The node was given one of these items of the queue, to which it is assigned now, and became busy. -/
def Took (t : Scheduler) (q : Nat) (made : List Nat) (n n' : Node) : Prop :=
  n.state = .idle ∧ ∃ id ∈ made, ∃ e a, t.get? ⟨q, id⟩ = some e ∧ e.assignment = some a ∧ a.node = n.name ∧
    a.serial = n.serial ∧ n' = { n with state := .busy, holds := some id }

/-- On the way from one state to the other these items of the queue were assigned, in this order, and nothing
else happened to items and nodes. -/
structure Placed (q : Nat) (made : List Nat) (s t : Scheduler) : Prop where
  /-- Each of them was pending and is assigned. -/
  assigned : ∀ id ∈ made, ∃ e a, s.get? ⟨q, id⟩ = some e ∧ e.state = .pending ∧
    t.get? ⟨q, id⟩ = some { e with state := .assigned, assignment := some a }
  /-- None of them was assigned twice. -/
  distinct : made.Nodup
  /-- All other items are as they were. -/
  others : ∀ item : ItemRef, (item.queue = q → item.id ∉ made) → t.get? item = s.get? item
  /-- The other pending items are still pending, in the same order. -/
  pending : (t.queue q).pending = (s.queue q).pending.filter (· ∉ made)
  /-- The assigned items are building, in the order in which they were assigned. -/
  building : (t.queue q).building = (s.queue q).building ++ made
  /-- The same listeners are told of assignments. -/
  listeners : (t.queue q).listeners = (s.queue q).listeners
  /-- The other queues are as they were. -/
  elsewhere : ∀ j, j ≠ q → t.queue j = s.queue j
  /-- The nodes are as they were, but for those that these items were given to. -/
  nodes : List.Forall₂ (fun n n' => n' = n ∨ Took t q made n n') s.pool.nodes t.pool.nodes

namespace Placed

/-- Nothing is assigned where only journals and contacts change. -/
theorem alike (h : Alike s t) : Placed q [] s t where
  assigned _ hid := absurd hid List.not_mem_nil
  distinct := .nil
  others item _ := h.get? item
  pending := by simp [h.queue]
  building := by simp [h.queue]
  listeners := by rw [h.queue]
  elsewhere j _ := h.queue j
  nodes := by
    rw [h.pool]
    exact List.forall₂_same.mpr fun n _ => .inl rfl

/-- An item is assigned to a node. -/
theorem single {n : Node} {e : Entrant} (hs : s.WellFormed) (hfit : Eligible judge s q n e) :
    Placed q [e.item.id] s (s.assign q n e) := by
  have hqueue : (s.assign q n e).queue q =
      (s.queue q).assign e.item.id ⟨n.name, n.serial, (s.queue q).nextRun e.item.task⟩ := by
    rw [queue_assign, if_pos ⟨rfl, lt_of_mem (.inl hfit.pending)⟩]
  have hother {j : Nat} (hj : j ≠ q) : (s.assign q n e).queue j = s.queue j := by
    rw [queue_assign, if_neg fun h => hj h.1]
  have hknown : (s.queue q).get? e.item.id = some e := hfit.known
  have hpositive := Queue.pos_of_get? hknown
  have hgiven : (s.assign q n e).get? ⟨q, e.item.id⟩ = some { e with
      state := .assigned
      assignment := some ⟨n.name, n.serial, (s.queue q).nextRun e.item.task⟩ } := by
    rw [get?, hqueue, Queue.get?_assign hpositive, if_pos rfl, hknown, Option.map_some]
  exact
    { assigned := fun id hid => by
        obtain rfl := List.mem_singleton.mp hid
        exact ⟨e, _, hfit.known, ((hs.queues q).pending_iff hfit.known).mp hfit.pending, hgiven⟩
      distinct := List.nodup_singleton _
      others := fun item hitem => by
        by_cases hq : item.queue = q
        · have hid : item.id ≠ e.item.id := fun heq => hitem hq (List.mem_singleton.mpr heq)
          rw [get?, get?, hq, hqueue, Queue.get?_assign hpositive, if_neg hid]
        · rw [get?, get?, hother hq]
      pending := by
        rw [hqueue]
        change (s.queue q).pending.erase e.item.id = _
        rw [(hs.queues q).pending_nodup.erase_eq_filter]
        exact List.filter_congr fun id _ => by by_cases h : id = e.item.id <;> simp [h]
      building := by rw [hqueue]; rfl
      listeners := by rw [hqueue]; rfl
      elsewhere := fun j hj => hother hj
      nodes := by
        change List.Forall₂ _ s.pool.nodes (s.pool.nodes.map _)
        refine List.forall₂_map_right_iff.mpr (List.forall₂_same.mpr fun m hm => ?_)
        by_cases hname : m.name = n.name
        · obtain rfl := hs.pool.eq_of_name hm hfit.registered hname
          rw [if_pos rfl]
          exact .inr ⟨hfit.idle, e.item.id, List.mem_singleton_self _, _, _, hgiven, rfl, rfl, rfl, rfl⟩
        · exact .inl (if_neg hname) }

/-- Assignments after assignments. -/
protected theorem trans (h : Placed q made s t) (h' : Placed q made' t u) : Placed q (made ++ made') s u := by
  -- what was assigned first is not pending any more when the others are assigned
  have hdisjoint : ∀ id ∈ made, id ∉ made' := by
    intro id hid hid'
    obtain ⟨e, a, -, -, ht⟩ := h.assigned id hid
    obtain ⟨e', -, ht', hpending, -⟩ := h'.assigned id hid'
    obtain rfl := Option.some.inj (ht.symm.trans ht')
    cases hpending
  have hkept {id : Nat} (hid : id ∈ made) : u.get? ⟨q, id⟩ = t.get? ⟨q, id⟩ :=
    h'.others ⟨q, id⟩ fun _ => hdisjoint id hid
  exact
    { assigned := fun id hid => by
        rcases List.mem_append.mp hid with hid | hid
        · obtain ⟨e, a, hs, hpending, ht⟩ := h.assigned id hid
          exact ⟨e, a, hs, hpending, (hkept hid).trans ht⟩
        · obtain ⟨e, a, ht, hpending, hu⟩ := h'.assigned id hid
          have hs := h.others ⟨q, id⟩ fun _ hmade => hdisjoint id hmade hid
          exact ⟨e, a, hs ▸ ht, hpending, hu⟩
      distinct := List.nodup_append.mpr ⟨h.distinct, h'.distinct, fun id hid id' hid' heq =>
        hdisjoint id hid (heq ▸ hid')⟩
      others := fun item hitem => by
        have hnot : item.queue = q → item.id ∉ made ∧ item.id ∉ made' := fun hq => by
          simpa using hitem hq
        exact (h'.others item fun hq => (hnot hq).2).trans (h.others item fun hq => (hnot hq).1)
      pending := by
        rw [h'.pending, h.pending, List.filter_filter]
        exact List.filter_congr fun id _ => by simp [Bool.and_comm]
      building := by rw [h'.building, h.building, List.append_assoc]
      listeners := h'.listeners.trans h.listeners
      elsewhere := fun j hj => (h'.elsewhere j hj).trans (h.elsewhere j hj)
      nodes := by
        refine forall₂_trans (fun n n' n'' hfirst hlast => ?_) h.nodes h'.nodes
        rcases hfirst with rfl | ⟨hidle, id, hid, e, a, he, htook⟩
        · rcases hlast with rfl | ⟨hidle, id, hid, htook⟩
          · exact .inl rfl
          · exact .inr ⟨hidle, id, List.mem_append_right _ hid, htook⟩
        · refine .inr ⟨hidle, id, List.mem_append_left _ hid, e, a, (hkept hid).trans he, ?_⟩
          rcases hlast with rfl | ⟨hidle', -⟩
          · exact htook
          · rw [htook.2.2.2] at hidle'
            cases hidle' }

end Placed

/-- A node that is idle after assignments was there before them, as it is. -/
theorem Placed.mem_of_idle (h : Placed q made s t) {n : Node} (hn : n ∈ t.pool.nodes) (hidle : n.state = .idle) :
    n ∈ s.pool.nodes := by
  obtain ⟨i, hi, rfl⟩ := List.mem_iff_getElem.mp hn
  have hlength := h.nodes.length_eq
  rcases List.forall₂_iff_get.mp h.nodes |>.2 i (hlength ▸ hi) hi with hsame | ⟨-, id, -, e, a, -, -, -, -, htook⟩
  · rw [List.get_eq_getElem] at hsame
    rw [hsame]
    exact List.get_mem ..
  · rw [List.get_eq_getElem] at htook
    rw [htook] at hidle
    cases hidle

/-- What a chain of assignments does is to assign these items. -/
theorem Assigns.placed {moments : List Moment} (hs : s.WellFormed) (h : Assigns judge q s moments t) :
    Placed q (moments.map Moment.id) s t := by
  induction h with
  | stop h => exact .alike h
  | next h hfit _ ih =>
      have hcalm := hs.alike h
      have hfirst := (Placed.alike h).trans (Placed.single hcalm hfit)
      exact hfirst.trans (ih (hcalm.assign _ hfit.pending))

/-- What matching does is to assign items. -/
theorem matchItems_placed (hs : s.WellFormed) (judge : Judge) (q : Nat) :
    Placed q (matchItems judge q s).made s (matchItems judge q s).state :=
  matchItems_made judge q s ▸ (matchItems_assigns hs judge q).placed hs

/-- An assigned item has its promise kept. -/
theorem keepPromise_of_assigned {id : Nat} {e : Entrant} (he : s.get? ⟨q, id⟩ = some e)
    (ha : e.assignment = some a) :
    keepPromise q s id =
      (s.log (.itemAssigned id e.item.task.text a.node a.run.id)).settle ⟨q, id⟩ (.kept a) := by
  have hknown : (s.queue q).get? id = some e := he
  simp only [keepPromise, hknown, ha]

/-- Settling a promise changes the promise of the item, and no other item. -/
theorem get?_settle {e : Entrant} (he : s.get? item = some e) (p : Promise) (other : ItemRef) :
    (s.settle item p).get? other = if other = item then some { e with promise := p } else s.get? other := by
  have hknown : (s.queue item.queue).get? item.id = some e := he
  rw [(settle_alike he p).get?, get?, queue_withQueue]
  by_cases hq : other.queue = item.queue
  · rw [if_pos ⟨hq, lt_of_get? he⟩, Queue.get?_update (Queue.pos_of_get? hknown)]
    by_cases hid : other.id = item.id
    · have hsame : other = item := by cases other; cases item; simp_all
      rw [if_pos hid, if_pos hsame, hsame, hknown, Option.map_some]
    · rw [if_neg hid, if_neg fun h => hid (congrArg ItemRef.id h), get?]
  · rw [if_neg fun h => hq h.1, if_neg fun h => hq (congrArg ItemRef.queue h), get?]

/-- The promises of these items of the queue are kept on the way, and nothing else happens to items and nodes. -/
structure Promised (q : Nat) (made : List Nat) (t u : Scheduler) : Prop where
  /-- Each of these items gets the promise of its assignment kept. -/
  kept : ∀ id ∈ made, ∀ e a, t.get? ⟨q, id⟩ = some e → e.assignment = some a →
    u.get? ⟨q, id⟩ = some { e with promise := .kept a }
  /-- All other items are as they were. -/
  others : ∀ item : ItemRef, (item.queue = q → item.id ∉ made) → u.get? item = t.get? item
  /-- The same items are pending, in the same order. -/
  pending : ∀ j, (u.queue j).pending = (t.queue j).pending
  /-- The same items are building, in the same order. -/
  building : ∀ j, (u.queue j).building = (t.queue j).building
  /-- The same listeners are told of assignments. -/
  listeners : ∀ j, (u.queue j).listeners = (t.queue j).listeners
  /-- The nodes are as they were. -/
  pool : u.pool = t.pool

namespace Promised

/-- No promise is kept if nothing happens. -/
protected theorem nil (q : Nat) (s : Scheduler) : Promised q [] s s where
  kept _ hid := absurd hid List.not_mem_nil
  others _ _ := rfl
  pending _ := rfl
  building _ := rfl
  listeners _ := rfl
  pool := rfl

/-- One promise is kept. -/
theorem single (q id : Nat) (s : Scheduler) : Promised q [id] s (keepPromise q s id) := by
  have hkept : ∀ i ∈ [id], ∀ e a, s.get? ⟨q, i⟩ = some e → e.assignment = some a →
      (keepPromise q s id).get? ⟨q, i⟩ = some { e with promise := .kept a } := by
    intro i hi e a he ha
    obtain rfl := List.mem_singleton.mp hi
    rw [keepPromise_of_assigned he ha, get?_settle, if_pos rfl]
    exact he
  rcases keepPromise_cases q s id with hsame | ⟨e, a, he, -, hsettle⟩
  · exact
      { kept := hkept
        others := fun item _ => by rw [hsame]
        pending := fun j => by rw [hsame]
        building := fun j => by rw [hsame]
        listeners := fun j => by rw [hsame]
        pool := by rw [hsame] }
  · let noted := s.log (.itemAssigned id e.item.task.text a.node a.run.id)
    have hnoted : noted.get? ⟨q, id⟩ = some e := he
    have halike := settle_alike hnoted (.kept a)
    have hqueue (j : Nat) : ((noted.settle ⟨q, id⟩ (.kept a)).queue j) = s.queue j ∨
        ((noted.settle ⟨q, id⟩ (.kept a)).queue j) =
          (s.queue j).update id fun e => { e with promise := .kept a } := by
      rw [halike.queue, queue_withQueue]
      split
      case isTrue => exact .inr rfl
      case isFalse => exact .inl rfl
    rw [hsettle] at hkept ⊢
    exact
      { kept := hkept
        others := fun item hitem => by
          rw [get?_settle hnoted, if_neg]
          · rfl
          · rintro rfl
            exact hitem rfl (List.mem_singleton_self _)
        pending := fun j => by rcases hqueue j with h | h <;> exact (congrArg Queue.pending h).trans rfl
        building := fun j => by rcases hqueue j with h | h <;> exact (congrArg Queue.building h).trans rfl
        listeners := fun j => by rcases hqueue j with h | h <;> exact (congrArg Queue.listeners h).trans rfl
        pool := halike.pool }

/-- More promises are kept after others. -/
protected theorem trans (h : Promised q made s t) (h' : Promised q made' t u) :
    Promised q (made ++ made') s u where
  kept id hid e a he ha := by
    by_cases hfirst : id ∈ made
    · have ht := h.kept id hfirst e a he ha
      by_cases hlast : id ∈ made'
      · have hu := h'.kept id hlast _ a ht ha
        exact hu
      · exact (h'.others _ fun _ => hlast).trans ht
    · have hlast : id ∈ made' := (List.mem_append.mp hid).resolve_left hfirst
      exact h'.kept id hlast e a ((h.others _ fun _ => hfirst).trans he) ha
  others item hitem := by
    have hnot : item.queue = q → item.id ∉ made ∧ item.id ∉ made' := fun hq => by simpa using hitem hq
    exact (h'.others item fun hq => (hnot hq).2).trans (h.others item fun hq => (hnot hq).1)
  pending j := (h'.pending j).trans (h.pending j)
  building j := (h'.building j).trans (h.building j)
  listeners j := (h'.listeners j).trans (h.listeners j)
  pool := h'.pool.trans h.pool

/-- All promises of a list of items are kept. -/
theorem keepPromises (q : Nat) (made : List Nat) (s : Scheduler) :
    Promised q made s (made.foldl (keepPromise q) s) := by
  induction made generalizing s with
  | nil => exact .nil q s
  | cons id made ih => exact (single q id s).trans (ih _)

end Promised

/-- After matching, the promises of the items are kept that it assigned. -/
theorem published_promised (judge : Judge) (q : Nat) (s : Scheduler) :
    Promised q (matchItems judge q s).made (matchItems judge q s).state (s.published judge q) :=
  .keepPromises q _ _

end Scheduler

end LabelScheduler
