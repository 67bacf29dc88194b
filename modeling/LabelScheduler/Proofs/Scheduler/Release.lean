import LabelScheduler.Proofs.Scheduler.Exclusive
import LabelScheduler.Proofs.Scheduler.Unblocked

/-!
# Which node a completion frees

An item that completes frees the node of the name that it was given to, if this node holds an item of the same
number. Names can be given again after a node was removed, and every queue numbers its items from one, so with
several queues this may be a later node that holds an item of another queue. It cannot be where there is one queue
at the most, since the item itself is then the only one of its number, and it cannot be where no node was ever
removed, since the name is then still that of the registration which the item was given to. In both cases the node
is freed that the item was given to, and nobody else was given this node.
-/

namespace LabelScheduler

namespace Scheduler

variable {judge : Judge} {judges : Set Judge} {s t : Scheduler} {q i : Nat} {n : Node} {item : ItemRef}
  {a : Assignment}

section Registrations

variable {r : String × Nat}

/-- Registrations stay as they are, or a node joins under the next number, or those of one name leave. -/
theorem Effect.registrations (h : Effect judges s t) :
    (t.pool.registrations = s.pool.registrations ∧ t.pool.enrolled = s.pool.enrolled) ∨
    (∃ name, t.pool.registrations = s.pool.registrations ++ [(name, s.pool.enrolled)] ∧
      t.pool.enrolled = s.pool.enrolled + 1) ∨
    ∃ name, t.pool.registrations = s.pool.registrations.filter (·.1 != name) ∧
      t.pool.enrolled = s.pool.enrolled := by
  have hsame {u : Scheduler} (h : u.pool = s.pool) :
      u.pool.registrations = s.pool.registrations ∧ u.pool.enrolled = s.pool.enrolled := ⟨by rw [h], by rw [h]⟩
  cases h with
  | note h => exact .inl (hsame h.pool)
  | read r => exact .inl ⟨rfl, rfl⟩
  | @join name labels h => exact .inr (.inl ⟨name, List.map_append, rfl⟩)
  | leave name => exact .inr (.inr ⟨name, Pool.registrations_drop _ _, rfl⟩)
  | turn state h hfree => exact .inl ⟨Pool.registrations_update _ _ (fun _ => rfl) fun _ => rfl, rfl⟩
  | enter h => exact .inl ⟨rfl, rfl⟩
  | assign hjudge h => exact .inl ⟨Pool.registrations_update _ _ (fun _ => rfl) fun _ => rfl, rfl⟩
  | keep h ha => exact .inl (hsame (pool_settle ..))
  | withdraw h => exact .inl ⟨rfl, rfl⟩
  | renounce h hstate => exact .inl (hsame (pool_settle ..))
  | start h => exact .inl ⟨rfl, rfl⟩
  | @complete q item h =>
      rw [(conclude_alike s q item).pool]
      cases (s.get? item).bind Entrant.node with
      | none => exact .inl ⟨rfl, rfl⟩
      | some name => exact .inl ⟨Pool.registrations_release _ _ _, Pool.release_enrolled _ _ _⟩
  | openQueue listeners => exact .inl ⟨rfl, rfl⟩
  | listen q p => exact .inl ⟨rfl, rfl⟩
  | subscribe p => exact .inl ⟨rfl, rfl⟩
  | watch p item => exact .inl (hsame (pool_watch ..))

/-- The count of registrations does not go back. -/
theorem Effects.enrolled_le (h : Effects judges s t) : s.pool.enrolled ≤ t.pool.enrolled := by
  induction h with
  | refl => exact Nat.le_refl _
  | tail _ hstep ih =>
      rcases hstep.registrations with ⟨-, hcount⟩ | ⟨_, -, hcount⟩ | ⟨_, -, hcount⟩ <;> omega

/-- No node was ever removed. -/
def Complete (s : Scheduler) : Prop := s.pool.nodes.length = s.pool.enrolled

/-- If no node was removed by the end of an effect, none was before it, and registrations are not lost. -/
theorem Complete.earlier (hs : s.WellFormed) (h : Effect judges s t) (ht : t.Complete) :
    s.Complete ∧ s.pool.registrations ⊆ t.pool.registrations := by
  have hle := hs.pool.length_le
  have hlength (u : Scheduler) : u.pool.registrations.length = u.pool.nodes.length := List.length_map _
  have hs' := hlength s
  have ht' := hlength t
  unfold Complete at ht ⊢
  rcases h.registrations with ⟨hsame, hcount⟩ | ⟨name, hjoin, hcount⟩ | ⟨name, hleave, hcount⟩
  · rw [hsame] at ht' ⊢
    exact ⟨by omega, List.Subset.refl _⟩
  · rw [hjoin] at ht' ⊢
    rw [List.length_append, List.length_singleton] at ht'
    exact ⟨by omega, List.subset_append_left _ _⟩
  · have hfewer := List.length_filter_le (fun r : String × Nat => r.1 != name) s.pool.registrations
    rw [hleave] at ht'
    have hall : s.pool.registrations.filter (·.1 != name) = s.pool.registrations :=
      List.filter_eq_self.mpr (List.length_filter_eq_length_iff.mp (by omega))
    rw [hleave, hall]
    exact ⟨by omega, List.Subset.refl _⟩

/-- There was such a registration, and unless a node was removed since then, there is. -/
structure Recorded (s : Scheduler) (r : String × Nat) : Prop where
  enrolled : r.2 < s.pool.enrolled
  present : s.Complete → r ∈ s.pool.registrations

/-- A registered node is recorded. -/
theorem Recorded.of_mem (hs : s.WellFormed) (hn : n ∈ s.pool.nodes) : s.Recorded (n.name, n.serial) :=
  ⟨hs.pool.enrolled n hn, fun _ => Pool.mem_registrations.mpr ⟨n, hn, rfl, rfl⟩⟩

/-- Registrations stay recorded. -/
theorem Recorded.effect (hs : s.WellFormed) (h : s.Recorded r) (hst : Effect judges s t) : t.Recorded r := by
  refine ⟨?_, fun ht => ?_⟩
  · have henrolled := h.enrolled
    rcases hst.registrations with ⟨-, hcount⟩ | ⟨_, -, hcount⟩ | ⟨_, -, hcount⟩ <;> omega
  · obtain ⟨hbefore, hkept⟩ := ht.earlier hs hst
    exact hkept (h.present hbefore)

end Registrations

/-- Items that are building have an assignment, and assignments are to registrations that there were. -/
structure Traced (s : Scheduler) : Prop where
  given : ∀ item e, s.get? item = some e → e.state.isBuilding = true → ∃ a, e.assignment = some a
  recorded : ∀ item e a, s.get? item = some e → e.assignment = some a → s.Recorded (a.node, a.serial)

namespace Traced

/-- Every effect keeps it so. -/
theorem effect (hs : s.WellFormed) (h : s.Traced) (hst : Effect judges s t) : t.Traced where
  given item e' he' hb := by
    cases hst.origin hs he' with
    | entered hstate _ => rw [hstate] at hb; cases hb
    | stayed he hstays => exact hstays.assignment ▸ h.given item _ he (hstays.building hb)
    | assigned _ _ _ _ _ ha => exact ⟨_, ha⟩
  recorded item e' a he' ha := by
    cases hst.origin hs he' with
    | entered _ hnone => exact nomatch hnone.symm.trans ha
    | stayed he hstays => exact (h.recorded item _ a he (hstays.assignment ▸ ha)).effect hs hst
    | assigned _ hfit _ _ _ hassigned =>
        obtain rfl := Option.some.inj (ha.symm.trans hassigned)
        exact (Recorded.of_mem hs hfit.registered).effect hs hst

/-- Any number of effects keep it so. -/
theorem effects (hst : Effects judges .empty s) : s.Traced := by
  induction hst with
  | refl =>
      have hnone (item : ItemRef) (e : Entrant) : Scheduler.empty.get? item ≠ some e :=
        fun he => Nat.not_lt_zero _ (lt_of_get? he)
      exact ⟨fun item e he => absurd he (hnone item e), fun item e a he => absurd he (hnone item e)⟩
  | tail hsteps hstep ih => exact ih.effect (WellFormed.empty.effects hsteps) hstep

end Traced

/-- A node owned an item before if the item has not been assigned since then. -/
theorem owned_of_stays (hs : s.WellFormed) (ht : t.WellFormed) {e e' : Entrant} (he : s.get? ⟨q, i⟩ = some e)
    (he' : t.get? ⟨q, i⟩ = some e') (hstays : e.Stays e') (howned : (t.queue q).Owned n i) :
    (s.queue q).Owned n i := by
  obtain ⟨e'', a, hget, ha, hgiven⟩ := howned.given
  obtain rfl := Option.some.inj (hget.symm.trans he')
  have hbuilding := hstays.building (((ht.queues q).building_iff he').mp howned.building)
  exact ⟨((hs.queues q).building_iff he).mpr hbuilding, e, a, he, hstays.assignment ▸ ha, hgiven⟩

/-- After an assignment, a node owned before what it owns, or it is the one that was given the item. -/
theorem owned_of_assign (hs : s.WellFormed) {m : Node} {e : Entrant} (hfit : Eligible judge s q m e) {j : Nat}
    (howned : ((s.assign q m e).queue j).Owned n i) :
    (s.queue j).Owned n i ∨ j = q ∧ i = e.item.id ∧ m.name = n.name ∧ m.serial = n.serial := by
  obtain ⟨e', a, he', ha, hname, hserial⟩ := howned.given
  have hget : (s.assign q m e).get? ⟨j, i⟩ = some e' := he'
  rcases hfit.get?_assign hget with ⟨hitem, -, hassigned⟩ | ⟨hother, he⟩
  · obtain ⟨rfl, rfl⟩ := ItemRef.mk.inj hitem
    obtain rfl := Option.some.inj (ha.symm.trans hassigned)
    exact .inr ⟨rfl, rfl, hname, hserial⟩
  · have hbuilding := (((hs.assign m hfit.pending).queues j).building_iff he').mp howned.building
    exact .inl ⟨((hs.queues j).building_iff he).mpr hbuilding, e', a, he, ha, hname, hserial⟩

/-- Whoever owns an item holds it, and owns no other. -/
def Sole (s : Scheduler) : Prop :=
  ∀ n ∈ s.pool.nodes, ∀ q i, (s.queue q).Owned n i → n.holds = some i ∧ ∀ j, (s.queue j).Owned n i → j = q

/-- There is one queue at the most, or no node was ever removed. -/
def Unambiguous (s : Scheduler) : Prop := s.queues.length ≤ 1 ∨ s.Complete

/-- If there is one queue at the most or no node was removed by the end of an effect, it was so before it. -/
theorem Unambiguous.earlier (hs : s.WellFormed) (h : Effect judges s t) (ht : t.Unambiguous) : s.Unambiguous :=
  ht.imp (Nat.le_trans (Grows.effect h).queues) fun hcomplete =>
    (hcomplete.earlier hs h).1

/-- No item is assigned and none ends: the nodes hold what they held, new ones apart, and own at most what they
owned. -/
structure Undisturbed (s t : Scheduler) : Prop where
  nodes : ∀ n' ∈ t.pool.nodes, n'.serial = s.pool.enrolled ∨
    ∃ n ∈ s.pool.nodes, n.name = n'.name ∧ n.serial = n'.serial ∧ n.holds = n'.holds
  owned : ∀ q n i, (t.queue q).Owned n i → (s.queue q).Owned n i

/-- An effect assigns an item, or an item ends, or nodes and items are undisturbed. -/
theorem Effect.sort (hs : s.WellFormed) (h : Effect judges s t) :
    (∃ judge q n e, Eligible judge s q n e ∧ t = s.assign q n e) ∨
    (∃ q item, s.isBuildingIn q item = true ∧ t = s.conclude q item) ∨ Undisturbed s t := by
  by_cases hassign : ∃ judge q n e, Eligible judge s q n e ∧ t = s.assign q n e
  · exact .inl hassign
  by_cases hend : ∃ q item, s.isBuildingIn q item = true ∧ t = s.conclude q item
  · exact .inr (.inl hend)
  refine .inr (.inr ⟨?_, fun q n i howned => ?_⟩)
  · have hsame {u : Scheduler} (hu : u.pool.nodes = s.pool.nodes) : ∀ n' ∈ u.pool.nodes,
        n'.serial = s.pool.enrolled ∨
          ∃ n ∈ s.pool.nodes, n.name = n'.name ∧ n.serial = n'.serial ∧ n.holds = n'.holds :=
      fun n' hn' => .inr ⟨n', hu ▸ hn', rfl, rfl, rfl⟩
    cases h with
    | note h => exact hsame (h.pool ▸ rfl)
    | read r => exact hsame rfl
    | join labels h =>
        intro n' hn'
        rcases List.mem_append.mp hn' with hold | hnew
        · exact .inr ⟨n', hold, rfl, rfl, rfl⟩
        · rw [List.mem_singleton.mp hnew]
          exact .inl rfl
    | leave name => exact fun n' hn' => .inr ⟨n', (List.mem_filter.mp hn').1, rfl, rfl, rfl⟩
    | turn state h hfree =>
        intro n' hn'
        obtain ⟨n, hn, rfl⟩ := Pool.mem_update.mp hn'
        refine .inr ⟨n, hn, ?_⟩
        split <;> exact ⟨rfl, rfl, rfl⟩
    | enter h => exact hsame rfl
    | assign hjudge h => exact absurd ⟨_, _, _, _, h, rfl⟩ hassign
    | keep h ha => exact hsame (congrArg Pool.nodes (pool_settle ..))
    | withdraw h => exact hsame rfl
    | renounce h hstate => exact hsame (congrArg Pool.nodes (pool_settle ..))
    | start h => exact hsame rfl
    | complete h => exact absurd ⟨_, _, h, rfl⟩ hend
    | openQueue listeners => exact hsame rfl
    | listen q p => exact hsame rfl
    | subscribe p => exact hsame rfl
    | watch p item => exact hsame (congrArg Pool.nodes (pool_watch ..))
  · obtain ⟨e', a, he', ha, -⟩ := howned.given
    have hget : t.get? ⟨q, i⟩ = some e' := he'
    cases h.origin hs hget with
    | entered _ hnone => exact nomatch hnone.symm.trans ha
    | stayed he hstays => exact owned_of_stays hs (hs.effect h) he hget hstays howned
    | assigned _ hfit _ ht _ _ => exact absurd ⟨_, _, _, _, hfit, ht⟩ hassign

/-- Where an item ends, the node of the name that it was given to is freed if it holds an item of this number. -/
theorem nodes_conclude (hs : s.WellFormed) {e : Entrant} (he : s.get? item = some e) (ha : e.assignment = some a) :
    (s.conclude q item).pool.nodes = s.pool.nodes.map fun n =>
      if n.name = a.node ∧ n.holds = some item.id then { n with state := .idle, holds := none } else n := by
  have hnode : (s.get? item).bind Entrant.node = some a.node := by
    rw [he, Option.bind_some, Entrant.node, ha, Option.map_some]
  rw [(conclude_alike s q item).pool, hnode]
  exact hs.pool.nodes_release a.node item.id

/-- Where there is one queue at the most, or no node was ever removed, a node that is freed when an item ends is the
one that was given the item. -/
theorem Unambiguous.owned (hs : s.WellFormed) (h : s.Unambiguous) (hhoused : s.Housed) (htraced : s.Traced)
    {e : Entrant} (hbuilding : s.isBuildingIn q item = true) (he : s.get? item = some e)
    (ha : e.assignment = some a) (hn : n ∈ s.pool.nodes) (hname : n.name = a.node)
    (hholds : n.holds = some item.id) : (s.queue q).Owned n item.id := by
  obtain ⟨rfl, hmem⟩ := mem_of_isBuildingIn hbuilding
  rcases h with hone | hcomplete
  · obtain ⟨j, howned⟩ := hhoused n hn item.id hholds
    have hopen := lt_of_mem (.inr hmem)
    have hopen' := lt_of_mem (.inr howned.building)
    obtain rfl : j = item.queue := by omega
    exact howned
  · obtain ⟨m, hm, hmname, hmserial⟩ := Pool.mem_registrations.mp ((htraced.recorded item e a he ha).present hcomplete)
    obtain rfl := hs.pool.eq_of_name hm hn (hmname.trans hname.symm)
    exact ⟨hmem, e, a, he, ha, hname.symm, hmserial.symm⟩

namespace Sole

/-- A node that is given an item owned nothing before, as it held nothing. -/
theorem assign (hs : s.WellFormed) (h : s.Sole) {m : Node} {e : Entrant} (hfit : Eligible judge s q m e) :
    (s.assign q m e).Sole := by
  have hnobody {j i : Nat} : ¬ (s.queue j).Owned m i := by
    intro howned
    obtain ⟨hholds, -⟩ := h m hfit.registered j i howned
    exact nomatch hholds.symm.trans (hs.pool.idle_free m hfit.registered hfit.idle)
  intro n' hn' j i howned
  obtain ⟨n, hn, rfl⟩ := Pool.mem_update.mp hn'
  by_cases hname : n.name = m.name
  · obtain rfl := hs.pool.eq_of_name hn hfit.registered hname
    rw [if_pos rfl] at howned ⊢
    have hgiven {j i : Nat} (howned : ((s.assign q n e).queue j).Owned
        { n with state := .busy, holds := some e.item.id } i) : j = q ∧ i = e.item.id := by
      rcases owned_of_assign hs hfit howned with hold | ⟨hj, hi, -⟩
      · have hbefore : (s.queue j).Owned n i := hold.node rfl rfl
        exact absurd hbefore hnobody
      · exact ⟨hj, hi⟩
    obtain ⟨rfl, rfl⟩ := hgiven howned
    exact ⟨rfl, fun j' howned' => (hgiven howned').1⟩
  · rw [if_neg hname] at howned ⊢
    have hold {j i : Nat} (howned : ((s.assign q m e).queue j).Owned n i) : (s.queue j).Owned n i :=
      (owned_of_assign hs hfit howned).resolve_right fun hnew => hname hnew.2.2.1.symm
    obtain ⟨hholds, honly⟩ := h n hn j i (hold howned)
    exact ⟨hholds, fun j' howned' => honly j' (hold howned')⟩

/-- A node that is freed as an item ends owned this item, and so nothing else. -/
theorem conclude (hs : s.WellFormed) (h : s.Sole) (hhoused : s.Housed) (htraced : s.Traced)
    (hunambiguous : s.Unambiguous) (hbuilding : s.isBuildingIn q item = true) : (s.conclude q item).Sole := by
  obtain ⟨rfl, hmem⟩ := mem_of_isBuildingIn hbuilding
  have hend : Effect Set.univ s (s.conclude item.queue item) := .complete hbuilding
  have hold {j i : Nat} {n : Node} (howned : ((s.conclude item.queue item).queue j).Owned n i) :
      (s.queue j).Owned n i := by
    obtain ⟨e', a, he', -⟩ := howned.given
    obtain ⟨e, he, hstays⟩ := Passive.conclude hs hbuilding ⟨j, i⟩ e' he'
    exact owned_of_stays hs (hs.effect hend) he he' hstays howned
  have hended {n : Node} : ¬ ((s.conclude item.queue item).queue item.queue).Owned n item.id := by
    intro howned
    have hlisted := howned.building
    rw [queue_conclude, if_pos ⟨rfl, lt_of_mem (.inr hmem)⟩] at hlisted
    exact (hs.queues item.queue).distinct.not_mem_erase hlisted
  obtain ⟨e, he⟩ := (hs.queues item.queue).known (.inr hmem)
  obtain ⟨a, ha⟩ := htraced.given item e he (((hs.queues item.queue).building_iff he).mp hmem)
  intro n' hn' j i howned
  rw [nodes_conclude hs he ha] at hn'
  obtain ⟨n, hn, rfl⟩ := List.mem_map.mp hn'
  split at howned
  case isTrue hfreed =>
    have hitem := hunambiguous.owned hs hhoused htraced hbuilding he ha hn hfreed.1 hfreed.2
    have hother : (s.queue j).Owned n i := (hold howned).node rfl rfl
    obtain ⟨hholds, -⟩ := h n hn j i hother
    obtain rfl : item.id = i := Option.some.inj (hfreed.2.symm.trans hholds)
    obtain rfl := (h n hn item.queue item.id hitem).2 j hother
    exact absurd howned hended
  case isFalse hkept =>
    rw [if_neg hkept]
    obtain ⟨hholds, honly⟩ := h n hn j i (hold howned)
    exact ⟨hholds, fun j' howned' => honly j' (hold howned')⟩

/-- A node that is new owns nothing yet, as all assignments are to earlier registrations. -/
theorem undisturbed (h : s.Sole) (htraced : s.Traced) (hst : Undisturbed s t) : t.Sole := by
  intro n' hn' j i howned
  have hbefore := hst.owned j n' i howned
  rcases hst.nodes n' hn' with hnew | ⟨n, hn, hname, hserial, hholds⟩
  · obtain ⟨e, a, he, ha, -, hserial⟩ := hbefore.given
    have henrolled : a.serial < s.pool.enrolled := (htraced.recorded ⟨j, i⟩ e a he ha).enrolled
    omega
  · obtain ⟨hheld, honly⟩ := h n hn j i (hbefore.node hname.symm hserial.symm)
    refine ⟨hholds ▸ hheld, fun j' howned' => honly j' ?_⟩
    exact (hst.owned j' n' i howned').node hname.symm hserial.symm

/-- Where there is one queue at the most, or no node was ever removed, every effect keeps it so that nodes hold what
they own and own nothing else. -/
theorem effect (hs : s.WellFormed) (h : s.Sole) (hhoused : s.Housed) (htraced : s.Traced)
    (hst : Effect judges s t) (ht : t.Unambiguous) : t.Sole := by
  rcases hst.sort hs with ⟨judge, q, m, e, hfit, rfl⟩ | ⟨q, item, hbuilding, rfl⟩ | hundisturbed
  · exact h.assign hs hfit
  · exact h.conclude hs hhoused htraced (ht.earlier hs hst) hbuilding
  · exact h.undisturbed htraced hundisturbed

/-- Any number of effects keep it so. -/
theorem effects (hst : Effects judges .empty s) (h : s.Unambiguous) : s.Sole := by
  induction hst with
  | refl => exact fun n hn => absurd hn List.not_mem_nil
  | tail hsteps hstep ih =>
      have hs := WellFormed.empty.effects hsteps
      exact (ih (h.earlier hs hstep)).effect hs (Housed.effects hsteps) (Traced.effects hsteps) hstep h

end Sole

end Scheduler

/-- An item that is building and is reported complete at any moment of a run ends before anything else happens, and
then its queue matches. As it ends, the node is freed of the name that the item was given to, if this node holds an
item of the same number, and no other node changes. The node that is freed is the one that the item was given to, or
else an item of another queue that has the same number is building on it. If there is one queue at the most, or no
node was ever removed, it is the one that the item was given to, and no other item is building on it. -/
theorem Config.run_completed_frees (moves : List Move) (judge : Judge) (q : Nat) (item : ItemRef)
    (hbuilding : (run moves).state.isBuildingIn q item = true) :
    let s := (run moves).state
    ∃ e a, s.get? item = some e ∧ e.assignment = some a ∧
      (∃ u, Scheduler.Alike (s.conclude q item) u ∧
        s.completed judge q item = (u.maintain judge q).returning fun _ => ()) ∧
      ((s.conclude q item).pool.nodes = s.pool.nodes.map fun n =>
        if n.name = a.node ∧ n.holds = some item.id then { n with state := .idle, holds := none } else n) ∧
      ∀ n ∈ s.pool.nodes, n.name = a.node → n.holds = some item.id →
        (n.serial = a.serial ∨ ∃ j, j ≠ q ∧ (s.queue j).Owned n item.id) ∧
        (s.Unambiguous → n.serial = a.serial ∧ ∀ j i, (s.queue j).Owned n i → j = q ∧ i = item.id) := by
  intro s
  have hs : s.WellFormed := run_wellFormed moves
  have hhoused : s.Housed := Scheduler.Housed.effects (run_effects moves)
  have htraced : s.Traced := Scheduler.Traced.effects (run_effects moves)
  obtain ⟨rfl, hmem⟩ := Scheduler.mem_of_isBuildingIn hbuilding
  obtain ⟨e, he⟩ := (hs.queues item.queue).known (.inr hmem)
  obtain ⟨a, ha⟩ := htraced.given item e he (((hs.queues item.queue).building_iff he).mp hmem)
  -- a node that owns the item is the one that the item was given to
  have hserial {n : Node} (howned : (s.queue item.queue).Owned n item.id) : n.serial = a.serial := by
    obtain ⟨e', a', he', ha', -, hserial⟩ := howned.given
    obtain rfl := Option.some.inj (he'.symm.trans he)
    obtain rfl := Option.some.inj (ha'.symm.trans ha)
    exact hserial.symm
  refine ⟨e, a, he, ha, ?_, Scheduler.nodes_conclude hs he ha, fun n hn hname hholds => ⟨?_, fun h => ?_⟩⟩
  · refine ⟨(s.conclude item.queue item).log (.itemCompleted item.id ((s.get? item).bind Entrant.node)),
      .log _ _, ?_⟩
    rw [Scheduler.completed, if_pos hbuilding]
    rfl
  · obtain ⟨j, howned⟩ := hhoused n hn item.id hholds
    by_cases hj : j = item.queue
    · exact .inl (hserial (hj ▸ howned))
    · exact .inr ⟨j, hj, howned⟩
  · have howned := h.owned hs hhoused htraced hbuilding he ha hn hname hholds
    have hsole := Scheduler.Sole.effects (run_effects moves) h
    refine ⟨hserial howned, fun j i hother => ?_⟩
    obtain ⟨hheld, -⟩ := hsole n hn j i hother
    obtain rfl : item.id = i := Option.some.inj (hholds.symm.trans hheld)
    exact ⟨(hsole n hn item.queue item.id howned).2 j hother, rfl⟩

/-- A node is removed while an item runs on it, and its name is given again. When the item on the new node ends, the
new node is freed; the item on the old one frees nothing. -/
theorem Config.run_completed_frees_registered_again :
    let moves : List Move :=
      [.ask .lenient (.openQueue []), .ask .lenient (.register "n" (.parts [])),
        .ask .lenient (.submit 0 (.plain .none) "a" []), .ask .lenient (.remove "n"),
        .ask .lenient (.register "n" (.parts [])), .ask .lenient (.submit 0 (.plain .none) "b" [])]
    let s := (run moves).state
    s.isBuildingIn 0 ⟨0, 1⟩ = true ∧ (s.conclude 0 ⟨0, 1⟩).pool.nodes = s.pool.nodes ∧
      s.isBuildingIn 0 ⟨0, 2⟩ = true ∧ (s.conclude 0 ⟨0, 2⟩).pool.nodes = [.fresh "n" ["n"] 1] ∧
      ∃ e a, s.get? ⟨0, 2⟩ = some e ∧ e.assignment = some a ∧
        ∀ n ∈ s.pool.nodes, n.name = a.node → n.holds = some 2 →
          n.serial = a.serial ∧ ∀ j i, (s.queue j).Owned n i → j = 0 ∧ i = 2 := by
  intro moves s
  have hone : s.Unambiguous := .inl (by decide)
  obtain ⟨e, a, he, ha, -, -, hfreed⟩ := run_completed_frees moves .lenient 0 ⟨0, 2⟩ (by decide)
  refine ⟨by decide, by decide, by decide, by decide, e, a, he, ha, fun n hn hname hholds => ?_⟩
  exact (hfreed n hn hname hholds).2 hone

/-- With a second queue, the first item of each of them has the number one. The one of the first queue was given to
the old node of a name and ends late. This frees the new node of the name, on which the item of the second queue is
building and goes on building. -/
theorem Config.run_completed_frees_another :
    let moves : List Move :=
      [.ask .lenient (.openQueue []), .ask .lenient (.openQueue []), .ask .lenient (.register "n" (.parts [])),
        .ask .lenient (.submit 0 (.plain .none) "a" []), .ask .lenient (.remove "n"),
        .ask .lenient (.register "n" (.parts [])), .ask .lenient (.submit 1 (.plain .none) "b" [])]
    let s := (run moves).state
    let t := (run (moves ++ [.ask .lenient (.completed 0 ⟨0, 1⟩)])).state
    ((s.get? ⟨0, 1⟩).bind Entrant.assignment).map Assignment.serial = some 0 ∧
      ∃ n, s.pool.nodes = [n] ∧ n.serial = 1 ∧ n.state = .busy ∧ (s.queue 1).Owned n 1 ∧
        t.pool.nodes = [{ n with state := .idle, holds := none }] ∧ (t.queue 1).Owned n 1 := by
  intro moves s t
  let n : Node := { Node.fresh "n" ["n"] 1 with state := .busy, holds := some 1 }
  have howned {u : Scheduler} (hmem : 1 ∈ (u.queue 1).building)
      (hgiven : ((u.get? ⟨1, 1⟩).bind Entrant.assignment).map (fun a => (a.node, a.serial)) = some ("n", 1)) :
      (u.queue 1).Owned n 1 := by
    obtain ⟨a, ha, hnode⟩ := Option.map_eq_some_iff.mp hgiven
    obtain ⟨e, he, ha⟩ := Option.bind_eq_some_iff.mp ha
    exact ⟨hmem, e, a, he, ha, congrArg Prod.fst hnode, congrArg Prod.snd hnode⟩
  exact ⟨by decide, n, by decide, rfl, rfl, howned (by decide) (by decide), by decide,
    howned (by decide) (by decide)⟩

end LabelScheduler
