import LabelScheduler.Proofs.Scheduler.Quiet
import LabelScheduler.Proofs.Scheduler.Served

/-!
# Steady work on one queue

While jobs are replayed there is one queue to which nobody listens, and items only enter, are assigned and
complete. Then nodes are busy only with items, no item is cancelled, and an item that has left the pending
ones is one whose label some node satisfies. An operation on such a queue tells nobody and does not fail, it
notes no warning, and it ends with matching, so it leaves nothing behind that can go.
-/

namespace LabelScheduler

/-- The blocker holds an item back only while something is building in its queue. -/
def Blocker.isBrief : Blocker → Bool
  | .task _ queued => !queued
  | .run _ => true
  | _ => false

/-- What is known of an item in a replay over nodes of these descriptions: it is not cancelled, its blockers
are brief, and unless it is pending some of the nodes satisfies its label. -/
structure Entrant.Regular (nodes : List (String × List String)) (e : Entrant) : Prop where
  live : e.state ≠ .cancelled
  brief : ∀ b ∈ e.item.blockers, b.isBrief = true
  met : e.state ≠ .pending → ∃ n ∈ nodes, satisfies e.item.label n.2 = true

namespace Scheduler

variable {s t u : Scheduler} {nodes : List (String × List String)} {n : Node} {e : Entrant} {item : ItemRef}

/-- What is known of a scheduler during a replay over nodes of these descriptions: there is one queue, to
which nobody listens, nodes are busy only with items, and the items are regular. -/
structure Steady (nodes : List (String × List String)) (s : Scheduler) : Prop where
  single : s.queues.length = 1
  silent : (s.queue 0).listeners = []
  described : s.pool.nodes.map Node.described = nodes
  busy : ∀ n ∈ s.pool.nodes, n.state = .busy → n.holds ≠ none
  items : ∀ e ∈ (s.queue 0).entrants, e.Regular nodes

namespace Steady

/-- The queue is open. -/
theorem isOpen (h : Steady nodes s) : 0 < s.queues.length := Nat.lt_of_lt_of_eq Nat.one_pos h.single.symm

/-- Items that are found in the queue are regular. -/
theorem regular (h : Steady nodes s) {id : Nat} (he : (s.queue 0).get? id = some e) : e.Regular nodes :=
  h.items e (mem_entrants_iff.mpr ⟨id, he⟩)

/-- Journals and contacts do not matter. -/
theorem alike (h : Steady nodes s) (hst : Alike s t) : Steady nodes t where
  single := hst.queues ▸ h.single
  silent := hst.queue 0 ▸ h.silent
  described := hst.pool ▸ h.described
  busy := hst.pool ▸ h.busy
  items := hst.queue 0 ▸ h.items

/-- The queue may change as long as its items stay regular. -/
theorem withQueue (h : Steady nodes s) {f : Queue → Queue}
    (hlisteners : (f (s.queue 0)).listeners = (s.queue 0).listeners)
    (hitems : ∀ e ∈ (f (s.queue 0)).entrants, e.Regular nodes) : Steady nodes (s.withQueue 0 f) where
  single := (length_withQueue ..).trans h.single
  silent := by rw [queue_withQueue_self h.isOpen, hlisteners, h.silent]
  described := h.described
  busy := h.busy
  items := by rwa [queue_withQueue_self h.isOpen]

/-- Nodes may change what they do as long as they are busy only with items. -/
theorem withPool (h : Steady nodes s) {f : Pool → Pool}
    (hdescribed : (f s.pool).nodes.map Node.described = s.pool.nodes.map Node.described)
    (hbusy : ∀ n ∈ (f s.pool).nodes, n.state = .busy → n.holds ≠ none) : Steady nodes (s.withPool f) where
  single := h.single
  silent := h.silent
  described := hdescribed.trans h.described
  busy := hbusy
  items := h.items

/-- A registry may be put in place. -/
theorem read (h : Steady nodes s) (r : Registry) :
    Steady nodes (s.withPool fun p => { p with registry := r }) where
  single := h.single
  silent := h.silent
  described := h.described
  busy := h.busy
  items := h.items

/-- Changed nodes are busy only with items if the change sees to it. -/
theorem busy_update (h : Steady nodes s) (name : String) {f : Node → Node}
    (hf : ∀ n, (f n).state = .busy → (f n).holds ≠ none) :
    ∀ n ∈ (s.pool.update name f).nodes, n.state = .busy → n.holds ≠ none := by
  intro n hn
  obtain ⟨m, hm, rfl⟩ := Pool.mem_update.mp hn
  split
  case isTrue => exact hf m
  case isFalse => exact h.busy m hm

/-- A node may be given an item. -/
theorem occupy (h : Steady nodes s) (name : String) (id : Nat) : Steady nodes (s.withPool (·.occupy name id)) :=
  h.withPool (Pool.map_update _ _ _ fun _ => rfl) (h.busy_update name fun _ _ => nofun)

/-- A node that holds an item may be freed. -/
theorem release (h : Steady nodes s) (name : String) (id : Nat) :
    Steady nodes (s.withPool (·.release name id)) := by
  refine h.withPool ?_ ?_
  · unfold Pool.release
    split
    case isTrue => exact Pool.map_update _ _ _ fun _ => rfl
    case isFalse => rfl
  · unfold Pool.release
    split
    case isTrue => exact h.busy_update name fun _ => nofun
    case isFalse => exact h.busy

/-- A regular item may enter. -/
theorem enter (h : Steady nodes s) {i : Item} (hi : ∀ b ∈ i.blockers, b.isBrief = true) :
    Steady nodes (s.withQueue 0 (·.add i)) := by
  refine h.withQueue rfl fun e he => ?_
  rcases List.mem_append.mp he with hold | hnew
  · exact h.items e hold
  · rw [List.mem_singleton.mp hnew]
    exact ⟨nofun, hi, fun hstate => absurd rfl hstate⟩

/-- An eligible item may be assigned: the node satisfies its label. -/
theorem assign {judge : Judge} (h : Steady nodes s) (hfit : Eligible judge s 0 n e) :
    Steady nodes (s.assign 0 n e) := by
  refine alike ?_ (.log _ _)
  refine occupy (h.withQueue rfl ?_) n.name e.item.id
  refine Queue.forall_update (Queue.pos_of_get? hfit.known) (fun e' he' hregular => ?_) h.items
  obtain rfl : e = e' := Option.some.inj (hfit.known.symm.trans ((Queue.get?_congr rfl _).symm.trans he'))
  refine ⟨nofun, hregular.brief, fun _ => ⟨n.described, ?_, hfit.meets⟩⟩
  exact h.described ▸ List.mem_map_of_mem hfit.registered

/-- A promise may be kept. -/
theorem keep {id : Nat} {a : Assignment} (h : Steady nodes s) (he : s.get? ⟨0, id⟩ = some e) :
    Steady nodes (s.settle ⟨0, id⟩ (.kept a)) := by
  refine alike ?_ (settle_alike he _)
  exact h.withQueue rfl (Queue.forall_update (Queue.pos_of_get? he)
    (fun e' _ hregular => ⟨hregular.live, hregular.brief, hregular.met⟩) h.items)

/-- An item that is building may complete. -/
theorem conclude (h : Steady nodes s) (hs : s.WellFormed) (hbuilding : s.isBuildingIn 0 item = true) :
    Steady nodes (s.conclude 0 item) := by
  have hmem := (mem_of_isBuildingIn hbuilding).2
  obtain ⟨e, he⟩ := (hs.queues 0).known (.inr hmem)
  refine alike ?_ (conclude_alike s 0 item)
  have hcompleted : Steady nodes (s.withQueue 0 (·.complete item.id)) := by
    refine h.withQueue rfl (Queue.forall_update (Queue.pos_of_get? he) (fun e' he' hregular => ?_) h.items)
    refine ⟨nofun, hregular.brief, fun _ => hregular.met fun hpending => ?_⟩
    have hstate := ((hs.queues 0).building_iff ((Queue.get?_congr rfl _).symm.trans he')).mp hmem
    rw [hpending] at hstate
    cases hstate
  cases (s.get? item).bind Entrant.node with
  | none => exact hcompleted
  | some name => exact hcompleted.release name item.id

/-- Matching and keeping the promises keeps things steady. -/
theorem published (h : Steady nodes s) (hs : s.WellFormed) (judge : Judge) :
    Steady nodes (s.published judge 0) := by
  have hmatched : Steady nodes (matchItems judge 0 s).state :=
    (matchItems_assigns hs judge 0).preserve (fun hst hu => hu.alike hst)
      (fun hfit hu => hu.assign hfit) h
  exact keepPromises_preserve (fun hu => hu.alike (.log _ _)) (fun he _ hu => hu.keep he) _ hmatched

/-- The blockers of all items are built in. -/
theorem builtIn (h : Steady nodes s) : s.BuiltIn 0 := by
  intro e he b hb
  obtain ⟨id, -, hget⟩ := List.mem_filterMap.mp he
  have hbrief := (h.regular hget).brief b hb
  cases b with
  | party p => cases hbrief
  | _ => rfl

/-- Matching tells nobody, and it does not fail. -/
theorem maintain (h : Steady nodes s) (hs : s.WellFormed) (judge : Judge) :
    s.maintain judge 0 = .done (s.published judge 0) (.ok (matchItems judge 0 s).made) := by
  have hsteady := h.published hs judge
  have hkept := Narrows.keepPromises 0 (matchItems judge 0 s).made (matchItems judge 0 s).state
  have hfault := (matchItems_exhausted hs judge 0).fault_eq_none (hkept.builtIn hsteady.builtIn)
  have hlisteners : ((s.published judge 0).queue 0).listeners = [] := hsteady.silent
  have hsilent : (matchItems judge 0 s).made.flatMap (fun id =>
      ((s.published judge 0).queue 0).listeners.map (id, ·)) = [] := by
    rw [hlisteners]
    exact List.flatMap_eq_nil_iff.mpr fun _ _ => rfl
  rw [Scheduler.maintain, announce, ← Scheduler.published, hsilent, hfault]
  rfl

end Steady

/-- How a replay goes on from a state: by effects, with nobody outside holding items back, steadily, without a
warning, and to a state in which nothing that can go is left behind. -/
structure Proceeds (nodes : List (String × List String)) (s t : Scheduler) : Prop where
  effects : Effects {.lenient} s t
  steady : Steady nodes t
  served : t.Served 0
  quiet : Quietly s t

/-- Nothing needs to happen. -/
theorem Proceeds.refl (h : Steady nodes s) (hserved : s.Served 0) : Proceeds nodes s s :=
  ⟨Relation.ReflTransGen.refl, h, hserved, .of_eq rfl⟩

/-- A replay goes on step by step. -/
theorem Proceeds.trans (h : Proceeds nodes s t) (h' : Proceeds nodes t u) : Proceeds nodes s u :=
  ⟨h.effects.trans h'.effects, h'.steady, h'.served, h.quiet.trans h'.quiet⟩

/-- Steps that keep things steady, followed by matching. -/
theorem Steady.proceeds (ht : Steady nodes t) (hs : s.WellFormed) (hst : Effects {.lenient} s t)
    (hquiet : Quietly s t) : Proceeds nodes s (t.published .lenient 0) where
  effects := hst.trans (published_effects (hs.effects hst) (Set.mem_singleton _) 0)
  steady := ht.published (hs.effects hst) .lenient
  served := published_served (hs.effects hst) .lenient 0 (ht.published (hs.effects hst) .lenient).builtIn
  quiet := hquiet.trans (.published (hs.effects hst) .lenient 0)

end Scheduler

end LabelScheduler
