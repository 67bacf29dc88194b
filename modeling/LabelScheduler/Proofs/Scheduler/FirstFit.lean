import LabelScheduler.Proofs.Scheduler.Course
import LabelScheduler.Proofs.Scheduler.Placement
import LabelScheduler.Proofs.Scheduler.Refinement
import LabelScheduler.Proofs.Scheduler.Served

/-!
# First come, first served

Built-in blockers wait for items, tasks and runs to end, or for tasks to leave the queue. An item that is assigned
leaves the queue and is building from then on, so what held another item back before still does, perhaps for
another reason. A node that had nothing to take when it was its turn has therefore nothing to take after later
assignments either. Hence one pass makes all assignments, each to the first of all idle nodes that can take
anything, and of the earliest item that this node can take.
-/

namespace LabelScheduler

namespace Scheduler

variable {judge judge' : Judge} {q k count : Nat} {s t u : Scheduler} {n : Node} {nodes : List Node} {e : Entrant}
  {made : List Nat} {m : Matched}

/-! ### Assignments hold back what was held back -/

/-- After assignments an item that was building is building still, as it was. -/
theorem Placed.building_stays (hs : s.WellFormed) (ht : t.WellFormed) (h : Placed q made s t) {view : Nat}
    (he : e ∈ (s.queue view).buildingEntrants) : e ∈ (t.queue view).buildingEntrants := by
  by_cases hview : view = q
  · subst hview
    obtain ⟨hget, hid⟩ := (hs.queues view).mem_buildingEntrants.mp he
    have hnew : e.item.id ∉ made := by
      intro hmade
      obtain ⟨e', -, hget', hpending, -⟩ := h.assigned _ hmade
      obtain rfl := Option.some.inj (hget.symm.trans hget')
      have hbusy := ((hs.queues view).building_iff hget).mp hid
      rw [hpending] at hbusy
      cases hbusy
    have hkept := h.others ⟨view, e.item.id⟩ fun _ => hnew
    refine (ht.queues view).mem_buildingEntrants.mpr ⟨hkept.trans hget, ?_⟩
    rw [h.building]
    exact List.mem_append_left _ hid
  · rwa [h.elsewhere view hview]

/-- After assignments an item that was pending is pending still, as it was, or it is building. -/
theorem Placed.pending_moves (hs : s.WellFormed) (ht : t.WellFormed) (h : Placed q made s t) {view : Nat}
    (he : e ∈ (s.queue view).pendingEntrants) :
    e ∈ (t.queue view).pendingEntrants ∨ ∃ e' ∈ (t.queue view).buildingEntrants, e'.item = e.item := by
  by_cases hview : view = q
  · subst hview
    obtain ⟨hget, hid⟩ := (hs.queues view).mem_pendingEntrants.mp he
    by_cases hmade : e.item.id ∈ made
    · obtain ⟨e', a, hget', -, hassigned⟩ := h.assigned _ hmade
      obtain rfl := Option.some.inj (hget.symm.trans hget')
      refine .inr ⟨{ e with state := .assigned, assignment := some a }, ?_, rfl⟩
      refine (ht.queues view).mem_buildingEntrants.mpr ⟨hassigned, ?_⟩
      rw [h.building]
      exact List.mem_append_right _ hmade
    · have hkept := h.others ⟨view, e.item.id⟩ fun _ => hmade
      refine .inl ((ht.queues view).mem_pendingEntrants.mpr ⟨hkept.trans hget, ?_⟩)
      rw [h.pending]
      exact List.mem_filter.mpr ⟨hid, decide_eq_true hmade⟩
  · exact .inl (h.elsewhere view hview ▸ he)

/-- Items that are pending after assignments were pending before. -/
theorem Placed.pending_subset (hs : s.WellFormed) (ht : t.WellFormed) (h : Placed q made s t) {view : Nat}
    (he : e ∈ (t.queue view).pendingEntrants) : e ∈ (s.queue view).pendingEntrants := by
  by_cases hview : view = q
  · subst hview
    obtain ⟨hget, hid⟩ := (ht.queues view).mem_pendingEntrants.mp he
    rw [h.pending] at hid
    obtain ⟨hold, hnot⟩ := List.mem_filter.mp hid
    have hkept := h.others ⟨view, e.item.id⟩ fun _ => of_decide_eq_true hnot
    exact (hs.queues view).mem_pendingEntrants.mpr ⟨hkept.symm.trans hget, hold⟩
  · rwa [h.elsewhere view hview] at he

/-- An awaited item that is building holds items back. -/
theorem verdict_item_ne_free {judge : Judge} {awaited item : ItemRef} {view : Nat} :
    (Blocker.item awaited).verdict judge s view item ≠ .free ↔
      ∃ e, s.get? awaited = some e ∧ e.state.isBuilding = true := by
  rw [Blocker.verdict]
  cases s.get? awaited with
  | none => simp
  | some e => cases hbusy : e.state.isBuilding <;> simp [hbusy]

/-- A task holds items back while it is building, or also while another item of it is pending. -/
theorem verdict_task_ne_free {judge : Judge} {name : String} {queued : Bool} {item : ItemRef} {view : Nat} :
    (Blocker.task name queued).verdict judge s view item ≠ .free ↔ (s.queue view).isTaskBuilding name = true ∨
      queued = true ∧ (s.queue view).isTaskQueued name (some item.id) = true := by
  rw [Blocker.verdict]
  split_ifs with hbuilding hwaiting
  · simp [hbuilding]
  · simpa [hbuilding] using hwaiting
  · simpa [hbuilding] using hwaiting

/-- A run that is building holds items back. -/
theorem verdict_run_ne_free {judge : Judge} {r : RunReference} {item : ItemRef} {view : Nat} :
    (Blocker.run r).verdict judge s view item ≠ .free ↔ (s.queue view).isRunBuilding r = true := by
  rw [Blocker.verdict]
  cases (s.queue view).isRunBuilding r <;> simp

/-- A built-in blocker that did not let an item go does not let it go after assignments. -/
theorem Placed.verdict_ne_free (hs : s.WellFormed) (ht : t.WellFormed) (h : Placed q made s t) {b : Blocker}
    (hb : b.isBuiltIn = true) {view : Nat} {item : ItemRef} (hheld : b.verdict judge s view item ≠ .free) :
    b.verdict judge t view item ≠ .free := by
  have hbuilding {p : Entrant → Bool} {v : Nat} (hany : (s.queue v).buildingEntrants.any p = true) :
      (t.queue v).buildingEntrants.any p = true := by
    obtain ⟨e, he, hp⟩ := List.any_eq_true.mp hany
    exact List.any_eq_true.mpr ⟨e, h.building_stays hs ht he, hp⟩
  cases b with
  | item awaited =>
      obtain ⟨e, hget, hbusy⟩ := verdict_item_ne_free.mp hheld
      have hnumber : e.item.id = awaited.id := (hs.queues _).numbered hget
      have hmem := ((hs.queues _).building_iff hget).mpr hbusy
      have hstays := h.building_stays hs ht
        ((hs.queues awaited.queue).mem_buildingEntrants.mpr ⟨hnumber.symm ▸ hget, hnumber.symm ▸ hmem⟩)
      have hget' : (t.queue awaited.queue).get? e.item.id = some e :=
        ((ht.queues _).mem_buildingEntrants.mp hstays).1
      rw [hnumber] at hget'
      exact verdict_item_ne_free.mpr ⟨e, hget', hbusy⟩
  | task name queued =>
      refine verdict_task_ne_free.mpr ?_
      rcases verdict_task_ne_free.mp hheld with hany | ⟨hqueued, hany⟩
      · exact .inl (hbuilding hany)
      · obtain ⟨e, he, hp⟩ := List.any_eq_true.mp hany
        -- if the item that is waited for has been assigned, its task is building now
        rcases h.pending_moves hs ht he with hstays | ⟨e', he', hitem⟩
        · exact .inr ⟨hqueued, List.any_eq_true.mpr ⟨e, hstays, hp⟩⟩
        · refine .inl (List.any_eq_true.mpr ⟨e', he', ?_⟩)
          rw [hitem]
          exact (Bool.and_eq_true_iff.mp hp).1
  | run r => exact verdict_run_ne_free.mpr (hbuilding (verdict_run_ne_free.mp hheld))
  | party p => cases hb

/-- An item with built-in blockers that was not let go is not let go after assignments. -/
theorem Placed.answer_ne_free (hs : s.WellFormed) (ht : t.WellFormed) (h : Placed q made s t)
    (hb : ∀ b ∈ e.item.blockers, b.isBuiltIn = true) {view : Nat} (hheld : answer judge view s e ≠ .free) :
    answer judge view t e ≠ .free := by
  rw [ne_eq, answer_eq_free_iff] at hheld ⊢
  intro hfree
  refine hheld fun b hmem => ?_
  by_contra hnot
  exact h.verdict_ne_free hs ht (hb b hmem) hnot (hfree b hmem)

/-- Built-in blockers never answer with a fault. -/
theorem answer_ne_failed (hb : ∀ b ∈ e.item.blockers, b.isBuiltIn = true) (f : Fault) :
    answer judge q s e ≠ .failed f := by
  intro hf
  unfold answer at hf
  cases hfind : (e.item.blockers.map fun b => b.verdict judge s q ⟨q, e.item.id⟩).find? (· ≠ .free) with
  | none =>
      rw [hfind] at hf
      cases hf
  | some v =>
      obtain ⟨b, hmem, hv⟩ := List.mem_map.mp (List.mem_of_find?_eq_some hfind)
      rw [hfind, Option.getD_some] at hf
      exact b.verdict_ne_failed (hb b hmem) judge q _ f (hv.trans hf)

/-- An item with built-in blockers is passed over by a node exactly if it is not let go or the node does not satisfy
its label. -/
theorem passedOver_iff (hb : ∀ b ∈ e.item.blockers, b.isBuiltIn = true) :
    PassedOver judge q s n e ↔ answer judge q s e ≠ .free ∨ n.meets e.item.label = false := by
  unfold PassedOver
  cases hanswer : answer judge q s e with
  | free => simp
  | held r => simp
  | failed f => exact absurd hanswer (answer_ne_failed hb f)

/-- What a node passes over, it passes over after assignments. -/
theorem Placed.passedOver (hs : s.WellFormed) (ht : t.WellFormed) (h : Placed q made s t)
    (hb : ∀ b ∈ e.item.blockers, b.isBuiltIn = true) {view : Nat} (hpassed : PassedOver judge view s n e) :
    PassedOver judge view t n e := by
  rw [passedOver_iff hb] at hpassed ⊢
  exact hpassed.imp_left (h.answer_ne_free hs ht hb)

/-- No pending item has other blockers than built-in ones after assignments if none had before. -/
theorem BuiltIn.placed (hb : s.BuiltIn q) (hs : s.WellFormed) (ht : t.WellFormed) (h : Placed q made s t) :
    t.BuiltIn q :=
  fun e he => hb e (h.pending_subset hs ht he)

/-- Built-in blockers do not look at the journal or the contacts. -/
theorem BuiltIn.firm (hb : s.BuiltIn q) (judge : Judge) : Firm judge q s :=
  fun e he b hmem _ ht => b.verdict_congr (hb e he b hmem) (Narrows.alike ht).sight judge judge q _

/-! ### One pass makes all assignments -/

/-- In this state the node is the first of the idle ones that can take a pending item, and the item is the earliest
that the node can take: earlier items are held back or the node does not satisfy their labels, and so it is with
all items for the idle nodes that were registered earlier. -/
structure FirstFit (judge : Judge) (q : Nat) (s : Scheduler) (n : Node) (e : Entrant) : Prop where
  registered : n ∈ s.pool.nodes
  idle : n.state = .idle
  pending : e ∈ (s.queue q).pendingEntrants
  free : answer judge q s e = .free
  meets : n.meets e.item.label = true
  earliest : EarlierPassedOver judge q s n e
  first : ∀ n' ∈ s.pool.nodes, n'.state = .idle → n'.serial < n.serial →
    ∀ e' ∈ (s.queue q).pendingEntrants, PassedOver judge q s n' e'

/-- What is answered for a pending item is the same in states that are alike, if its blockers are firm. -/
theorem Firm.answer_alike (hfirm : Firm judge q s) (he : e ∈ (s.queue q).pendingEntrants) (h : Alike s t) :
    answer judge q t e = answer judge q s e := by
  have hsame : (e.item.blockers.map fun b => b.verdict judge t q ⟨q, e.item.id⟩) =
      e.item.blockers.map fun b => b.verdict judge s q ⟨q, e.item.id⟩ :=
    List.map_congr_left fun b hmem => hfirm e he b hmem t h
  rw [answer, answer, hsame]

/-- What fits first in a state fits first in states that are alike, if the blockers are firm. -/
theorem FirstFit.alike (hfirm : Firm judge q s) (hfit : FirstFit judge q s n e) (h : Alike s t) :
    FirstFit judge q t n e := by
  have hpassed {n' : Node} {e' : Entrant} (he' : e' ∈ (t.queue q).pendingEntrants)
      (hold : e' ∈ (s.queue q).pendingEntrants → PassedOver judge q s n' e') : PassedOver judge q t n' e' := by
    rw [h.queue] at he'
    rw [PassedOver, hfirm.answer_alike he' h]
    exact hold he'
  exact
    { registered := h.pool ▸ hfit.registered
      idle := hfit.idle
      pending := h.queue q ▸ hfit.pending
      free := (hfirm.answer_alike hfit.pending h).trans hfit.free
      meets := hfit.meets
      earliest := fun e' he' hlt => hpassed he' fun he => hfit.earliest e' he hlt
      first := fun n' hn' hstate hlt e' he' =>
        hpassed he' (hfit.first n' (h.pool ▸ hn') hstate hlt e') }

/-- On the way from one state to the other these items were given to these nodes, in this order, each in a state in
which they were the first to fit. -/
inductive FirstFits (judge : Judge) (q : Nat) : Scheduler → List (Node × Entrant) → Scheduler → Prop where
  | stop {s t : Scheduler} (h : Alike s t) : FirstFits judge q s [] t
  | next {s t u : Scheduler} {n : Node} {e : Entrant} {given : List (Node × Entrant)} (h : Alike s t)
      (hfit : FirstFit judge q t n e) (hrest : FirstFits judge q (t.assign q n e) given u) :
      FirstFits judge q s ((n, e) :: given) u

/-- Idle nodes other than these pass over all pending items. -/
def Skipped (judge : Judge) (q : Nat) (s : Scheduler) (nodes : List Node) : Prop :=
  ∀ n ∈ s.pool.nodes, n.state = .idle → n ∈ nodes ∨ ∀ e ∈ (s.queue q).pendingEntrants, PassedOver judge q s n e

namespace FirstFits

variable {given : List (Node × Entrant)}

/-- Journal and contacts may change before the first assignment. -/
theorem head (h : Alike s t) (ht : FirstFits judge q t given u) : FirstFits judge q s given u := by
  cases ht with
  | stop h' => exact .stop (h.trans h')
  | next h' hfit hrest => exact .next (h.trans h') hfit hrest

/-- Journal and contacts may change after the last assignment. -/
theorem tail (hs : FirstFits judge q s given t) (h : Alike t u) : FirstFits judge q s given u := by
  induction hs with
  | stop h' => exact .stop (h'.trans h)
  | next h' hfit _ ih => exact .next h' hfit (ih h)

end FirstFits

/-- Nodes that were skipped have nothing to take after assignments, if no other nodes are idle then. -/
theorem Skipped.placed (hskipped : Skipped judge q s nodes) (hb : s.BuiltIn q) (hs : s.WellFormed)
    (ht : t.WellFormed) (h : Placed q made s t)
    (hidle : ∀ n ∈ t.pool.nodes, n.state = .idle → n ∈ s.pool.nodes) : Skipped judge q t nodes :=
  fun n hn hstate => (hskipped n (hidle n hn hstate) hstate).imp_right fun hall e he =>
    have hold := h.pending_subset hs ht he
    h.passedOver hs ht (hb e hold) (hall e hold)

/-- A node that passes over all pending items is skipped. -/
theorem Skipped.of_cons (hskipped : Skipped judge q s (n :: nodes))
    (hall : ∀ e ∈ (s.queue q).pendingEntrants, PassedOver judge q s n e) : Skipped judge q s nodes := by
  intro n' hn' hstate
  rcases hskipped n' hn' hstate with hmem | hpassed
  · rcases List.mem_cons.mp hmem with rfl | hrest
    · exact .inr hall
    · exact .inl hrest
  · exact .inr hpassed

/-- If all idle nodes before it are skipped, a node and the item that is chosen for it are the first to fit. -/
theorem Choice.firstFit (h : Choice judge q s n (.ok (some e))) (hn : n ∈ s.pool.nodes) (hidle : n.state = .idle)
    (hincreasing : ((n :: nodes).map Node.serial).Pairwise (· < ·)) (hskipped : Skipped judge q s (n :: nodes)) :
    FirstFit judge q s n e := by
  have hlater := (List.pairwise_cons.mp hincreasing).1
  cases h with
  | item hpending hfree hmeets hearlier =>
      refine ⟨hn, hidle, hpending, hfree, hmeets, hearlier, fun n' hn' hstate hlt => ?_⟩
      refine (hskipped n' hn' hstate).resolve_left fun hmem => ?_
      rcases List.mem_cons.mp hmem with rfl | hrest
      · exact Nat.lt_irrefl _ hlt
      · exact Nat.lt_asymm hlt (hlater _ (List.mem_map_of_mem hrest))

/-- A node that was given an item is not idle. -/
theorem ne_of_idle_assign {n' : Node} (hn' : n' ∈ (s.assign q n e).pool.nodes) (hstate : n'.state = .idle) :
    n' ∈ s.pool.nodes ∧ n' ≠ n := by
  obtain ⟨n₀, hn₀, rfl⟩ := Pool.mem_update.mp hn'
  split at hstate
  case isTrue => cases hstate
  case isFalse hname =>
    rw [if_neg hname]
    exact ⟨hn₀, fun heq => hname (congrArg Node.name heq)⟩

/-- A walk over nodes in the order of their registration gives each item to the first node that fits, if the idle
nodes that are not walked over have nothing to take; and at its end no idle node has. -/
theorem Walk.firstFits (hs : s.WellFormed) (hb : s.BuiltIn q)
    (hincreasing : (nodes.map Node.serial).Pairwise (· < ·)) (hskipped : Skipped judge q s nodes)
    (h : Walk judge q nodes s m) :
    m.fault = none ∧ Skipped judge q m.state [] ∧ ∃ given : List (Node × Entrant),
      m.made = given.map (·.2.item.id) ∧ (given.map Prod.fst).Sublist nodes ∧
      FirstFits judge q s given m.state := by
  induction h with
  | @done nodes s hend =>
      refine ⟨rfl, fun n hn hstate => .inr ?_, [], rfl, List.nil_sublist _, .stop (.refl s)⟩
      rcases hend with rfl | hnone
      · exact (hskipped n hn hstate).resolve_left List.not_mem_nil
      · exact fun e he => absurd (hnone ▸ he) List.not_mem_nil
  | failed h =>
      have hchoice := h.choice (hb.firm judge) (hs.queues q)
      cases hchoice with
      | failed hpending hf _ => exact absurd hf (answer_ne_failed (hb _ hpending) _)
  | nobody h _ ih =>
      have hchoice := h.choice (hb.firm judge) (hs.queues q)
      cases hchoice with
      | nobody hall =>
          cases h with
          | nobody halike _ _ =>
              have hplaced := Placed.alike (q := q) halike
              have ht := hs.alike halike
              have hstill := (hskipped.of_cons hall).placed hb hs ht hplaced fun n hn _ => halike.pool ▸ hn
              obtain ⟨hfault, hend, given, hmade, hsub, hfits⟩ :=
                ih ht (hb.placed hs ht hplaced) (List.pairwise_cons.mp hincreasing).2 hstill
              exact ⟨hfault, hend, given, hmade, hsub.cons _, hfits.head halike⟩
  | @given n nodes s t known e m h hfit _ ih =>
      have hchoice : Choice judge q s n (.ok (some e)) := h.choice (hb.firm judge) (hs.queues q)
      cases h with
      | first before after halike _ _ _ _ =>
          have ht := hs.alike halike
          have hassigned := ht.assign n hfit.pending
          have hplaced := (Placed.alike halike).trans (Placed.single ht hfit)
          have hn : n ∈ s.pool.nodes := halike.pool ▸ hfit.registered
          have hfirst := hchoice.firstFit hn hfit.idle hincreasing hskipped
          have hstill : Skipped judge q (t.assign q n e) nodes := by
            intro n' hn' hstate
            obtain ⟨hold, hne⟩ := ne_of_idle_assign hn' hstate
            have hskips := hskipped.placed hb hs hassigned hplaced fun n' hn' hstate =>
              halike.pool ▸ (ne_of_idle_assign hn' hstate).1
            refine (hskips n' hn' hstate).imp_left fun hmem => ?_
            exact (List.mem_cons.mp hmem).resolve_left hne
          obtain ⟨hfault, hend, given, hmade, hsub, hfits⟩ :=
            ih hassigned (hb.placed hs hassigned hplaced) (List.pairwise_cons.mp hincreasing).2 hstill
          exact ⟨hfault, hend, (n, e) :: given, by rw [hmade, List.map_cons], hsub.cons_cons n,
            .next halike (hfirst.alike (hb.firm judge) halike) hfits⟩

/-- Built-in blockers are built in whatever the journal and the contacts are. -/
theorem BuiltIn.alike (hb : s.BuiltIn q) (h : Alike s t) : t.BuiltIn q := (Narrows.alike h.symm).builtIn hb

/-- A pass gives each item to the first node that fits, and then no idle node has anything to take. -/
theorem matchPass_firstFits (hs : s.WellFormed) (hb : s.BuiltIn q) (judge : Judge) (k : Nat) :
    (matchPass judge q k s).fault = none ∧ Skipped judge q (matchPass judge q k s).state [] ∧
      ∃ given : List (Node × Entrant), (matchPass judge q k s).made = given.map (·.2.item.id) ∧
        (given.map Prod.fst).Sublist s.pool.idle ∧ FirstFits judge q s given (matchPass judge q k s).state := by
  have hnoted := noted_alike q k s
  have hincreasing : (s.pool.idle.map Node.serial).Pairwise (· < ·) :=
    hs.pool.numbered.sublist (List.filter_sublist.map _)
  have hskipped : Skipped judge q (s.noted q k) s.pool.idle := fun n hn hstate =>
    .inl (List.mem_filter.mpr ⟨hnoted.pool ▸ hn, beq_iff_eq.mpr hstate⟩)
  obtain ⟨hfault, hend, given, hmade, hsub, hfits⟩ :=
    (matchPass_walk hs judge q k).firstFits (hs.alike hnoted) (hb.alike hnoted) hincreasing hskipped
  exact ⟨hfault, hend, given, hmade, hsub, hfits.head hnoted⟩

/-- Where no idle node has anything to take, a pass assigns nothing. -/
theorem Skipped.matchPass (hskipped : Skipped judge q s []) (hs : s.WellFormed) (hb : s.BuiltIn q) (k : Nat) :
    (Scheduler.matchPass judge q k s).made = [] := by
  obtain ⟨-, -, given, hmade, -, hfits⟩ := matchPass_firstFits hs hb judge k
  rw [hmade]
  cases hfits with
  | stop => rfl
  | next h hfit _ =>
      have hfirst := hfit.alike ((hb.alike h).firm judge) h.symm
      have hpassed := (hskipped _ hfirst.registered hfirst.idle).resolve_left List.not_mem_nil
      exact absurd (hpassed _ hfirst.pending) (not_passedOver_of_free hfirst.free hfirst.meets)

/-- All assignments are made in the first pass; there is at most one more, which finds nothing to do. -/
theorem Passes.first (hs : s.WellFormed) (hb : s.BuiltIn q) (h : Passes judge q k count s m) :
    count ≤ 2 ∧ m.fault = none ∧ m.made = (matchPass judge q k s).made ∧
      Alike (matchPass judge q k s).state m.state := by
  obtain ⟨hfault, hend, -⟩ := matchPass_firstFits hs hb judge k
  cases h with
  | last => exact ⟨by omega, hfault, rfl, .refl _⟩
  | again _ hmade hrest =>
      have hassigns := matchPass_assigns hs judge q k
      have ht := hassigns.wellFormed hs
      have hb' := hb.placed hs ht (hassigns.placed hs)
      have hnone := hend.matchPass ht hb' (k + 1)
      cases hrest with
      | last =>
          refine ⟨Nat.le_refl 2, (matchPass_firstFits ht hb' judge (k + 1)).1, ?_, matchPass_alike ht hnone⟩
          rw [hnone, List.append_nil]
      | again _ hmade' _ => exact absurd hnone hmade'

end Scheduler

open Scheduler in
/-- Whatever effects follow a run, also in the middle of an operation: an assignment lets no pending item go that a
built-in blocker held back before. So where all pending items of a queue have built-in blockers alone, matching the
queue assigns in its first pass all that it assigns, to nodes in the order of their registration, and each time the
node is the first idle one that can take any pending item, and the item is the earliest that the node can take. -/
theorem Config.run_firstFits (moves : List Move) {s : Scheduler} (hreach : (run moves).state.Reaches s) :
    (∀ {judge : Judge} {q : Nat} {n : Node} {e : Entrant}, Eligible judge s q n e →
      ∀ (judge' : Judge) (view : Nat), ∀ e' ∈ (s.queue view).pendingEntrants,
        (∀ b ∈ e'.item.blockers, b.isBuiltIn = true) → answer judge' view s e' ≠ .free →
        answer judge' view (s.assign q n e) e' ≠ .free) ∧
    ∀ (judge : Judge) (q : Nat), s.BuiltIn q →
      let m := matchItems judge q s
      s.maintain judge q = (announce q m.made m.state).andThen (fun t _ => .done t (.ok m.made)) ∧
      m.made = (matchPass judge q 1 s).made ∧ (∃ count ≤ 2, Passes judge q 1 count s m) ∧
      ∃ given : List (Node × Entrant), m.made = given.map (·.2.item.id) ∧
        (given.map Prod.fst).Sublist s.pool.idle ∧ (given.map (·.1.serial)).Pairwise (· < ·) ∧
        FirstFits judge q s given m.state := by
  have hs : s.WellFormed := (run_wellFormed moves).effects hreach
  refine ⟨fun {judge q n e} hfit judge' view e' _ hb hheld => ?_, fun judge q hb => ?_⟩
  · exact (Placed.single hs hfit).answer_ne_free hs (hs.assign n hfit.pending) hb hheld
  · intro m
    obtain ⟨count, -, hpasses⟩ := matchItems_passes hs judge q
    obtain ⟨hcount, hfault, hmade, halike⟩ := hpasses.first hs hb
    obtain ⟨-, -, given, hgiven, hsub, hfits⟩ := matchPass_firstFits hs hb judge 1
    have hserials : (given.map (·.1.serial)).Pairwise (· < ·) := by
      have hincreasing := hs.pool.numbered.sublist ((hsub.trans List.filter_sublist).map Node.serial)
      rwa [List.map_map] at hincreasing
    refine ⟨?_, hmade, ⟨count, hcount, hpasses⟩, given, hmade.trans hgiven, hsub, hserials, hfits.tail halike⟩
    rw [maintain_eq, hfault, Option.elim_none]

open Scheduler in
/-- Two items wait for a task to end, and a third one until the work of the first of them is neither building nor in
the queue. When the task ends, the first node is given the second item, as it does not satisfy the label of the
first one; the second node gets nothing, and the third one is given the first item. Whatever were assigned first, the
third item would still be held back. -/
theorem Config.run_firstFits_when_task_ends :
    let moves : List Move :=
      [.ask .lenient (.openQueue []), .ask .lenient (.register "a" (.parts [])),
        .ask .lenient (.submit 0 (.plain .none) "t" []), .ask .lenient (.register "b" (.parts [])),
        .ask .lenient (.register "c" (.text "win")),
        .ask .lenient (.submit 0 (.plain (.text "win")) "u" [.task "t" false]),
        .ask .lenient (.submit 0 (.plain .none) "v" [.task "t" false]),
        .ask .lenient (.submit 0 (.plain .none) "w" [.task "u" true])]
    let s := (run moves).state.conclude 0 ⟨0, 1⟩
    let m := matchItems .lenient 0 s
    (s.queue 0).pending = [2, 3, 4] ∧ s.pool.idle.map Node.name = ["a", "b", "c"] ∧ m.made = [3, 2] ∧
      m.state.pool.nodes.map Node.holds = [some 3, none, some 2] ∧ m.made = (matchPass .lenient 0 1 s).made ∧
      (∃ given, [3, 2] = given.map (·.2.item.id) ∧ FirstFits .lenient 0 s given m.state) ∧
      ∀ e, (s.queue 0).get? 4 = some e → ∀ n e', Eligible .lenient s 0 n e' →
        answer .lenient 0 (s.assign 0 n e') e ≠ .free := by
  intro moves s m
  have hreach : (run moves).state.Reaches s := .single (.complete (by decide))
  have hb : s.BuiltIn 0 := by
    unfold BuiltIn
    decide
  have hfirst := run_firstFits moves hreach
  have hmade : m.made = [3, 2] := by decide
  obtain ⟨-, hone, -, given, hgiven, -, -, hfits⟩ := hfirst.2 .lenient 0 hb
  refine ⟨by decide, by decide, hmade, by decide, hone, ⟨given, hmade ▸ hgiven, hfits⟩, ?_⟩
  intro e he n e' hfit
  have hpending : e ∈ (s.queue 0).pendingEntrants := List.mem_filterMap.mpr ⟨4, by decide, he⟩
  refine hfirst.1 hfit .lenient 0 e hpending (hb e hpending) ?_
  have hheld : ∀ e ∈ (s.queue 0).get? 4, answer .lenient 0 s e ≠ .free := by decide
  exact hheld e he

end LabelScheduler
