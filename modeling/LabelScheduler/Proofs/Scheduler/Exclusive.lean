import LabelScheduler.Proofs.Scheduler.Run

/-!
# Who holds what

A node holds an item only while the item is building in some queue and assigned to this very node, that is, to its
name under its present registration. Every effect keeps it so: a pending item that is assigned is held by nobody,
and an item that completes takes the node with it that it was given to. With one queue, no two nodes hold the same
item, whatever parties ask for and whenever they fail.
-/

namespace LabelScheduler

namespace Queue

variable {q r : Queue} {n : Node} {i id : Nat} {f : Entrant → Entrant}

/-- The item is building, and the node is the one it was given to. -/
structure Owned (q : Queue) (n : Node) (i : Nat) : Prop where
  building : i ∈ q.building
  given : ∃ e a, q.get? i = some e ∧ e.assignment = some a ∧ a.node = n.name ∧ a.serial = n.serial

namespace Owned

/-- A node that is given an item owns it. -/
theorem assign (h : q.Orderly) (hid : id ∈ q.pending) {a : Assignment} (hname : a.node = n.name)
    (hserial : a.serial = n.serial) : Owned (q.assign id a) n id := by
  obtain ⟨e, he⟩ := h.known (.inl hid)
  refine ⟨List.mem_append_right _ (List.mem_singleton_self _), ?_⟩
  exact ⟨_, a, get?_update_self ((get?_congr rfl _).trans he) _, rfl, hname, hserial⟩

/-- Owning depends on who the node is, not on what it does. -/
theorem node (h : Owned q n i) {m : Node} (hname : n.name = m.name) (hserial : n.serial = m.serial) :
    Owned q m i := by
  obtain ⟨e, a, he, ha, hnode, hregistration⟩ := h.given
  exact ⟨h.building, e, a, he, ha, hnode.trans hname, hregistration.trans hserial⟩

/-- Only the items and the list of building ones matter. -/
theorem congr (h : Owned q n i) (hentrants : r.entrants = q.entrants) (hbuilding : r.building = q.building) :
    Owned r n i := by
  obtain ⟨e, a, he, hgiven⟩ := h.given
  exact ⟨hbuilding ▸ h.building, e, a, (get?_congr hentrants i).trans he, hgiven⟩

/-- A new item takes nothing away. -/
theorem add (h : Owned q n i) (item : Item) : Owned (q.add item) n i := by
  obtain ⟨e, a, he, hgiven⟩ := h.given
  refine ⟨h.building, e, a, ?_, hgiven⟩
  rw [get?_add, if_neg, he]
  rintro rfl
  rw [get?_nextId] at he
  cases he

/-- An item may change in all but its assignment. -/
theorem update (h : Owned q n i) (hf : ∀ e, (f e).assignment = e.assignment) (id : Nat) :
    Owned (q.update id f) n i := by
  obtain ⟨e, a, he, ha, hgiven⟩ := h.given
  obtain ⟨e', he', hsame⟩ := get?_update_congr hf id he
  exact ⟨h.building, e', a, he', hsame.trans ha, hgiven⟩

/-- Another item may change, and leave or enter the list of building ones. -/
theorem other (h : Owned q n i) (hentrants : r.entrants = q.entrants) (hbuilding : i ∈ r.building)
    (hid : 0 < id) (hne : i ≠ id) : Owned (r.update id f) n i := by
  obtain ⟨e, a, he, hgiven⟩ := h.given
  refine ⟨hbuilding, e, a, ?_, hgiven⟩
  rw [get?_update hid, if_neg hne, get?_congr hentrants, he]

end Owned

end Queue

namespace Scheduler

variable {s t : Scheduler} {q : Nat}

/-- What the nodes hold, they own in some queue. -/
def Housed (s : Scheduler) : Prop :=
  ∀ n ∈ s.pool.nodes, ∀ i, n.holds = some i → ∃ q, (s.queue q).Owned n i

namespace Housed

/-- Journals and contacts do not matter. -/
theorem alike (h : s.Housed) (hst : Alike s t) : t.Housed := by
  intro n hn i hi
  obtain ⟨j, howned⟩ := h n (hst.pool ▸ hn) i hi
  exact ⟨j, hst.queue j ▸ howned⟩

/-- A queue may change as long as all nodes go on owning what they own. -/
theorem withQueue (h : s.Housed) {f : Queue → Queue}
    (hf : ∀ {n i}, (s.queue q).Owned n i → (f (s.queue q)).Owned n i) : (s.withQueue q f).Housed := by
  intro n hn i hi
  obtain ⟨j, howned⟩ := h n hn i hi
  refine ⟨j, ?_⟩
  rw [queue_withQueue]
  split
  case isTrue hq => exact hq.1 ▸ hf (hq.1 ▸ howned)
  case isFalse => exact howned

/-- The nodes may change in what they do, and hold less. -/
theorem withPool (h : s.Housed) {f : Pool → Pool}
    (hf : ∀ n ∈ (f s.pool).nodes, ∀ i, n.holds = some i →
      ∃ m ∈ s.pool.nodes, m.holds = some i ∧ m.name = n.name ∧ m.serial = n.serial) :
    (s.withPool f).Housed := by
  intro n hn i hi
  obtain ⟨m, hm, hholds, hname, hserial⟩ := hf n hn i hi
  obtain ⟨j, howned⟩ := h m hm i hholds
  exact ⟨j, howned.node hname hserial⟩

/-- A node that is given a pending item owns it, and the others go on owning what they own. -/
theorem assign {judge : Judge} {n : Node} {e : Entrant} (hs : s.WellFormed) (h : s.Housed)
    (hfit : Eligible judge s q n e) : (s.assign q n e).Housed := by
  have hqueue := hs.queues q
  have hopen := lt_of_mem (.inl hfit.pending)
  intro m' hm' i hi
  obtain ⟨m, hm, rfl⟩ := Pool.mem_update.mp hm'
  by_cases hname : m.name = n.name
  · have hsame := hs.pool.eq_of_name hm hfit.registered hname
    rw [if_pos hname] at hi ⊢
    rw [← Option.some.inj hi, hsame]
    refine ⟨q, ?_⟩
    rw [queue_assign, if_pos ⟨rfl, hopen⟩]
    exact .assign hqueue hfit.pending rfl rfl
  · rw [if_neg hname] at hi ⊢
    obtain ⟨j, howned⟩ := h m hm i hi
    refine ⟨j, ?_⟩
    rw [queue_assign]
    split
    case isFalse => exact howned
    case isTrue hj =>
      obtain ⟨rfl, -⟩ := hj
      have hne : i ≠ e.item.id := by
        rintro rfl
        exact hqueue.not_building_of_pending hfit.pending howned.building
      exact howned.other rfl (List.mem_append_left _ howned.building) (Queue.pos_of_get? hfit.known) hne

/-- An item that completes is held by no node that it was given to, and nobody loses another one. -/
theorem conclude {item : ItemRef} (hs : s.WellFormed) (h : s.Housed) (hbuilding : s.isBuildingIn q item = true) :
    (s.conclude q item).Housed := by
  obtain ⟨rfl, hmem⟩ := mem_of_isBuildingIn hbuilding
  obtain ⟨e, he⟩ := (hs.queues item.queue).known (.inr hmem)
  -- whoever holds another item than this one goes on owning it
  have hother {m : Node} {i j : Nat} (howned : (s.queue j).Owned m i) (hne : ¬ (j = item.queue ∧ i = item.id)) :
      ((s.conclude item.queue item).queue j).Owned m i := by
    rw [queue_conclude]
    split
    case isFalse => exact howned
    case isTrue hj =>
      obtain ⟨rfl, -⟩ := hj
      have hid : i ≠ item.id := fun hid => hne ⟨rfl, hid⟩
      exact howned.other rfl ((List.mem_erase_of_ne hid).mpr howned.building) (Queue.pos_of_get? he) hid
  -- whoever owns this item has the name that the item was given to
  have howner {m : Node} (howned : (s.queue item.queue).Owned m item.id) :
      (s.get? item).bind Entrant.node = some m.name := by
    obtain ⟨e', a, he', ha, hnode, -⟩ := howned.given
    have hget : s.get? item = some e' := he'
    rw [hget, Option.bind_some, Entrant.node, ha, Option.map_some, hnode]
  intro n hn i hi
  rw [(conclude_alike s item.queue item).pool] at hn
  cases hnode : (s.get? item).bind Entrant.node with
  | none =>
      rw [hnode] at hn
      obtain ⟨j, howned⟩ := h n hn i hi
      refine ⟨j, hother howned ?_⟩
      rintro ⟨rfl, rfl⟩
      exact nomatch hnode.symm.trans (howner howned)
  | some name =>
      rw [hnode] at hn
      obtain ⟨hn', hne⟩ := hs.pool.mem_release hn hi
      obtain ⟨j, howned⟩ := h n hn' i hi
      refine ⟨j, hother howned ?_⟩
      rintro ⟨rfl, rfl⟩
      exact hne (Option.some.inj ((howner howned).symm.trans hnode)) rfl

/-- Every effect keeps nodes and items together. -/
theorem effect {judges : Set Judge} (hs : s.WellFormed) (h : s.Housed) (hst : Effect judges s t) : t.Housed := by
  cases hst with
  | note halike => exact h.alike halike
  | read r => exact h.withPool fun n hn i hi => ⟨n, hn, hi, rfl, rfl⟩
  | join labels hname =>
      apply h.withPool
      intro n hn i hi
      rcases List.mem_append.mp hn with hold | hnew
      · exact ⟨n, hold, hi, rfl, rfl⟩
      · rw [List.mem_singleton.mp hnew] at hi
        cases hi
  | leave name => exact h.withPool fun n hn i hi => ⟨n, (List.mem_filter.mp hn).1, hi, rfl, rfl⟩
  | turn state hfind hfree =>
      apply h.withPool
      intro n hn i hi
      obtain ⟨m, hm, rfl⟩ := Pool.mem_update.mp hn
      refine ⟨m, hm, ?_⟩
      split at hi
      case isTrue hname => simpa [hname] using hi
      case isFalse hname => simpa [hname] using hi
  | enter hid => exact h.withQueue fun howned => howned.add _
  | assign _ hfit => exact h.assign hs hfit
  | keep he ha => exact (h.withQueue fun howned => howned.update (by intro _; rfl) _).alike (settle_alike he _)
  | @withdraw q item hpending =>
      apply h.withQueue
      intro n i howned
      have hrest : Queue.Owned { s.queue q with pending := (s.queue q).pending.erase item.id } n i :=
        howned.congr rfl rfl
      exact hrest.update (by intro _; rfl) _
  | renounce he hstate =>
      exact (h.withQueue fun howned => howned.update (by intro _; rfl) _).alike (settle_alike he _)
  | start hbuilding => exact h.withQueue fun howned => howned.update (by intro _; rfl) _
  | complete hbuilding => exact h.conclude hs hbuilding
  | openQueue listeners =>
      intro n hn i hi
      obtain ⟨j, howned⟩ := h n hn i hi
      refine ⟨j, ?_⟩
      rw [queue_openQueue, if_neg (Nat.ne_of_lt (lt_of_mem (.inr howned.building)))]
      exact howned
  | listen q p => exact h.withQueue fun howned => howned.congr rfl rfl
  | subscribe p => exact h.withPool fun n hn i hi => ⟨n, hn, hi, rfl, rfl⟩
  | watch p item =>
      rcases watch_cases s p item with halike | ⟨e, _, hwatch⟩
      · exact h.alike halike
      · exact hwatch ▸ h.withQueue fun howned => howned.update (by intro _; rfl) _

/-- Nodes and items stay together over any number of effects. -/
theorem effects {judges : Set Judge} (hst : Effects judges .empty s) : s.Housed := by
  induction hst with
  | refl => exact fun n hn => absurd hn List.not_mem_nil
  | tail hsteps hstep ih => exact ih.effect (WellFormed.empty.effects hsteps) hstep

end Housed

/-- What the nodes hold, they own in the first queue. -/
def Attached (s : Scheduler) : Prop :=
  ∀ n ∈ s.pool.nodes, ∀ i, n.holds = some i → (s.queue 0).Owned n i

/-- Where there is one queue at the most, everything is owned in it. -/
theorem Attached.effects {judges : Set Judge} (hst : Effects judges .empty s) (hone : s.queues.length ≤ 1) :
    s.Attached := by
  intro n hn i hi
  obtain ⟨q, howned⟩ := Housed.effects hst n hn i hi
  have hopen := lt_of_mem (.inr howned.building)
  obtain rfl : q = 0 := by omega
  exact howned

/-- The items of the first queue and the nodes of the pool fit together. -/
structure Exclusive (s : Scheduler) : Prop where
  /-- Every item is in exactly one place, and its state says in which. -/
  placed : ∀ {id e}, s.get? ⟨0, id⟩ = some e →
    (id ∈ (s.queue 0).pending ∧ id ∉ (s.queue 0).building ∧ e.state = .pending) ∨
    (id ∉ (s.queue 0).pending ∧ id ∈ (s.queue 0).building ∧ (e.state = .assigned ∨ e.state = .running)) ∨
    (id ∉ (s.queue 0).pending ∧ id ∉ (s.queue 0).building ∧ (e.state = .completed ∨ e.state = .cancelled))
  /-- The numbers of the pending items increase. -/
  increasing : (s.queue 0).pending.Pairwise (· < ·)
  /-- No item is building twice. -/
  distinct : (s.queue 0).building.Nodup
  /-- What is pending or building is found under its own number. -/
  keyed : ∀ {id}, id ∈ (s.queue 0).pending ∨ id ∈ (s.queue 0).building →
    ∃ e, s.get? ⟨0, id⟩ = some e ∧ e.item.id = id
  /-- A node that holds an item is busy, and the item is building and assigned to it. -/
  owned : ∀ n ∈ s.pool.nodes, ∀ i, n.holds = some i → n.state = .busy ∧ (s.queue 0).Owned n i
  /-- No two nodes hold the same item. -/
  sole : ∀ m ∈ s.pool.nodes, ∀ n ∈ s.pool.nodes, ∀ i, m.holds = some i → n.holds = some i → m = n
  /-- An idle node holds nothing. -/
  idle : ∀ n ∈ s.pool.nodes, n.state = .idle → n.holds = none

/-- Items are in the place that their state says. -/
theorem WellFormed.placed (hs : s.WellFormed) {id : Nat} {e : Entrant} (he : s.get? ⟨q, id⟩ = some e) :
    (id ∈ (s.queue q).pending ∧ id ∉ (s.queue q).building ∧ e.state = .pending) ∨
    (id ∉ (s.queue q).pending ∧ id ∈ (s.queue q).building ∧ (e.state = .assigned ∨ e.state = .running)) ∨
    (id ∉ (s.queue q).pending ∧ id ∉ (s.queue q).building ∧ (e.state = .completed ∨ e.state = .cancelled)) := by
  have hpending := (hs.queues q).pending_iff he
  have hbuilding := (hs.queues q).building_iff he
  cases hstate : e.state <;> simp [hpending, hbuilding, hstate, ItemState.isBuilding]

/-- Where nodes and items are together, they fit together. -/
theorem Attached.exclusive (hs : s.WellFormed) (h : s.Attached) : s.Exclusive where
  placed he := hs.placed he
  increasing := (hs.queues 0).increasing
  distinct := (hs.queues 0).distinct
  keyed hid := by
    obtain ⟨e, he⟩ := (hs.queues 0).known hid
    exact ⟨e, he, (hs.queues 0).numbered he⟩
  owned n hn i hi := by
    refine ⟨?_, h n hn i hi⟩
    cases hstate : n.state with
    | busy => rfl
    | idle => exact nomatch hi.symm.trans (hs.pool.idle_free n hn hstate)
  sole m hm n hn i hmi hni := by
    obtain ⟨e, a, he, ha, hname, -⟩ := (h m hm i hmi).given
    obtain ⟨e', a', he', ha', hname', -⟩ := (h n hn i hni).given
    obtain rfl := Option.some.inj (he.symm.trans he')
    obtain rfl := Option.some.inj (ha.symm.trans ha')
    exact hs.pool.eq_of_name hm hn (hname.symm.trans hname')
  idle := hs.pool.idle_free

end Scheduler

/-- In every state of a run with one queue, items and nodes fit together, and no item that was queued earlier
has been forgotten. Operations may be asked for by parties that hear of assignments, blockers may answer in
any way, and parties may fail. -/
theorem Config.run_exclusive (earlier later : List Move)
    (hone : (run (earlier ++ later)).state.queues.length ≤ 1) :
    (run (earlier ++ later)).state.Exclusive ∧
      ∀ id e, (run earlier).state.get? ⟨0, id⟩ = some e →
        ∃ e', (run (earlier ++ later)).state.get? ⟨0, id⟩ = some e' ∧ e'.item = e.item := by
  have hattached := Scheduler.Attached.effects (run_effects (earlier ++ later)) hone
  refine ⟨hattached.exclusive (run_wellFormed _), fun id e he => ?_⟩
  exact (Scheduler.Grows.effects (run_append_effects earlier later)).items he

/-- A listener hears that an item was assigned, reports it complete, and then fails. -/
theorem Config.run_exclusive_completed_by_listener :
    let moves : List Move :=
      [.ask .lenient (.openQueue [0]), .ask .lenient (.register "n" (.parts [])),
        .ask .lenient (.submit 0 (.plain .none) "t" []), .ask .lenient (.completed 0 ⟨0, 1⟩)]
    let c := run (moves ++ [.answer (some (.outside "RuntimeError" "listener"))])
    c.state.queues.length ≤ 1 ∧ (c.state.get? ⟨0, 1⟩).map Entrant.state = some .completed ∧ c.state.Exclusive :=
  ⟨by decide, by decide, (run_exclusive _ _ (by decide)).1⟩

end LabelScheduler
