import LabelScheduler.Proofs.Scheduler.Run

/-!
# Nothing that can go is left behind

A blocker that is not the word of a party looks at little: which items are pending or building, what the work
is, and which runs they became. Matching ends only when no idle node satisfies the label of a pending item that
these blockers let go. Mild changes show the blockers the same and make no node idle, so nothing can go after
them either, and every other operation ends with matching. Hence in a run where nobody fails there is never
anything left to match.
-/

namespace LabelScheduler

/-- The blocker looks at the queue and leaves nothing to a party. -/
def Blocker.isBuiltIn : Blocker → Bool
  | .party _ => false
  | _ => true

/-- What blockers can see of an item: what the work is, whether it is building, and the run it became. -/
def Entrant.sight (e : Entrant) : Item × Bool × Option RunReference := (e.item, e.state.isBuilding, e.run)

/-- Blockers see the same in both queues. -/
structure Queue.SameSight (q r : Queue) : Prop where
  pending : r.pending = q.pending
  building : r.building = q.building
  items : ∀ id, (r.get? id).map Entrant.sight = (q.get? id).map Entrant.sight

namespace Queue.SameSight

variable {q r : Queue}

/-- Every queue looks like itself. -/
protected theorem refl (q : Queue) : q.SameSight q := ⟨rfl, rfl, fun _ => rfl⟩

/-- Looking the same is passed on. -/
protected theorem trans {p : Queue} (h : p.SameSight q) (h' : q.SameSight r) : p.SameSight r :=
  ⟨h'.pending.trans h.pending, h'.building.trans h.building, fun id => (h'.items id).trans (h.items id)⟩

/-- An item may change in what blockers do not see. -/
theorem update {id : Nat} {f : Entrant → Entrant} (hid : 0 < id)
    (hf : ∀ e, q.get? id = some e → (f e).sight = e.sight) : q.SameSight (q.update id f) := by
  refine ⟨rfl, rfl, fun j => ?_⟩
  rw [get?_update hid]
  by_cases hj : j = id
  · rw [if_pos hj, Option.map_map]
    cases he : q.get? j with
    | none => rfl
    | some e => exact congrArg some (hf e (hj ▸ he))
  · rw [if_neg hj]

/-- Every pending item of the second queue is one of the first, with the same work. -/
theorem pendingEntrant (h : q.SameSight r) {e : Entrant} (he : e ∈ r.pendingEntrants) :
    ∃ e₀ ∈ q.pendingEntrants, e₀.item = e.item := by
  obtain ⟨id, hid, hget⟩ := List.mem_filterMap.mp he
  have hsight := h.items id
  rw [hget, Option.map_some] at hsight
  obtain ⟨e₀, he₀, hsame⟩ := Option.map_eq_some_iff.mp hsight.symm
  exact ⟨e₀, List.mem_filterMap.mpr ⟨id, h.pending ▸ hid, he₀⟩, congrArg Prod.fst hsame⟩

/-- Whatever can be seen of some of the items is the same. -/
theorem any_entrants (h : q.SameSight r) (ids : List Nat) (p : Item × Bool × Option RunReference → Bool) :
    (ids.filterMap r.get?).any (fun e => p e.sight) = (ids.filterMap q.get?).any (fun e => p e.sight) := by
  have hmap : (ids.filterMap r.get?).map Entrant.sight = (ids.filterMap q.get?).map Entrant.sight := by
    rw [List.map_filterMap, List.map_filterMap]
    exact List.filterMap_congr fun id _ => h.items id
  have hany := congrArg (List.any · p) hmap
  simp only [List.any_map] at hany
  exact hany

/-- The same tasks are building. -/
theorem isTaskBuilding (h : q.SameSight r) (task : String) :
    r.isTaskBuilding task = q.isTaskBuilding task := by
  rw [Queue.isTaskBuilding, Queue.isTaskBuilding, buildingEntrants, buildingEntrants, h.building]
  exact h.any_entrants _ fun v => v.1.task.text == task

/-- The same tasks are pending. -/
theorem isTaskQueued (h : q.SameSight r) (task : String) (excluded : Option Nat) :
    r.isTaskQueued task excluded = q.isTaskQueued task excluded := by
  rw [Queue.isTaskQueued, Queue.isTaskQueued, pendingEntrants, pendingEntrants, h.pending]
  exact h.any_entrants _ fun v => v.1.task.text == task && some v.1.id != excluded

/-- The same runs are building. -/
theorem isRunBuilding (h : q.SameSight r) (run : RunReference) :
    r.isRunBuilding run = q.isRunBuilding run := by
  rw [Queue.isRunBuilding, Queue.isRunBuilding, buildingEntrants, buildingEntrants, h.building]
  exact h.any_entrants _ fun v => v.2.2 == some run

end Queue.SameSight

namespace Blocker

variable {s t : Scheduler} {b : Blocker}

/-- Built-in blockers answer what they see, whatever parties would say. -/
theorem verdict_congr (hb : b.isBuiltIn = true) (h : ∀ q, (s.queue q).SameSight (t.queue q))
    (judge judge' : Judge) (view : Nat) (item : ItemRef) :
    b.verdict judge' t view item = b.verdict judge s view item := by
  cases b with
  | item awaited =>
      have hsight : (t.get? awaited).map Entrant.sight = (s.get? awaited).map Entrant.sight :=
        (h awaited.queue).items awaited.id
      cases hs : s.get? awaited with
      | none =>
          rw [hs, Option.map_none, Option.map_eq_none_iff] at hsight
          simp only [verdict, hs, hsight]
      | some e =>
          rw [hs, Option.map_some] at hsight
          obtain ⟨e', ht, hsame⟩ := Option.map_eq_some_iff.mp hsight
          have hitem : e'.item = e.item := congrArg Prod.fst hsame
          have hbuilding : e'.state.isBuilding = e.state.isBuilding := congrArg (·.2.1) hsame
          simp only [verdict, hs, ht, hitem, hbuilding]
  | task name queued => simp only [verdict, (h view).isTaskBuilding, (h view).isTaskQueued]
  | run r => simp only [verdict, (h view).isRunBuilding]
  | party p => cases hb

/-- Built-in blockers do not fail. -/
theorem verdict_ne_failed (hb : b.isBuiltIn = true) (judge : Judge) (view : Nat) (item : ItemRef) (f : Fault) :
    b.verdict judge s view item ≠ .failed f := by
  cases b with
  | item awaited =>
      simp only [verdict]
      split
      · split <;> nofun
      · nofun
  | task name queued =>
      simp only [verdict]
      split
      · nofun
      · split <;> nofun
  | run r =>
      simp only [verdict]
      split <;> nofun
  | party p => cases hb

end Blocker

namespace Scheduler

variable {s t : Scheduler} {q : Nat} {judge : Judge}

/-- All pending items of the queue have built-in blockers alone. -/
def BuiltIn (s : Scheduler) (q : Nat) : Prop :=
  ∀ e ∈ (s.queue q).pendingEntrants, ∀ b ∈ e.item.blockers, b.isBuiltIn = true

/-- No idle node satisfies the label of a pending item that all its blockers let go. -/
def Served (s : Scheduler) (q : Nat) : Prop :=
  ∀ judge, ∀ n ∈ s.pool.nodes, n.state = .idle → ∀ e ∈ (s.queue q).pendingEntrants,
    (∀ b ∈ e.item.blockers, b.verdict judge s q ⟨q, e.item.id⟩ = .free) → n.meets e.item.label = false

/-- No node becomes idle on the way to the second state, and blockers see the same there. -/
structure Narrows (s t : Scheduler) : Prop where
  idle : ∀ n ∈ t.pool.nodes, n.state = .idle → n ∈ s.pool.nodes
  sight : ∀ q, (s.queue q).SameSight (t.queue q)

namespace Narrows

/-- Nothing changes if only journal and contacts do. -/
theorem alike (h : Alike s t) : Narrows s t :=
  ⟨fun _ hn _ => h.pool ▸ hn, fun q => h.queue q ▸ .refl _⟩

/-- One thing after the other. -/
protected theorem trans {u : Scheduler} (h : Narrows s t) (h' : Narrows t u) : Narrows s u :=
  ⟨fun n hn hidle => h.idle n (h'.idle n hn hidle) hidle, fun q => (h.sight q).trans (h'.sight q)⟩

/-- The nodes may change as long as none becomes idle. -/
theorem withPool {f : Pool → Pool} (h : ∀ n ∈ (f s.pool).nodes, n.state = .idle → n ∈ s.pool.nodes) :
    Narrows s (s.withPool f) :=
  ⟨h, fun _ => .refl _⟩

/-- A queue may change in what blockers do not see. -/
theorem withQueue {f : Queue → Queue} (h : (s.queue q).SameSight (f (s.queue q))) :
    Narrows s (s.withQueue q f) := by
  refine ⟨fun n hn _ => hn, fun j => ?_⟩
  rw [queue_withQueue]
  split
  case isTrue hq => exact hq.1 ▸ h
  case isFalse => exact .refl _

/-- Mild changes are of this kind. -/
theorem mild (hs : s.WellFormed) (h : Mild s t) : Narrows s t := by
  cases h with
  | note h => exact alike h
  | read r => exact withPool fun n hn _ => hn
  | leave name => exact withPool fun n hn _ => (List.mem_filter.mp hn).1
  | occupy h =>
      apply withPool
      intro n hn hidle
      obtain ⟨m, hm, rfl⟩ := Pool.mem_update.mp hn
      split at hidle
      case isTrue => cases hidle
      case isFalse hname => simpa [hname] using hm
  | @start q item h =>
      have hmem := (mem_of_isBuildingIn h).2
      obtain ⟨e, he⟩ := (hs.queues q).known (.inr hmem)
      apply withQueue
      apply Queue.SameSight.update (Queue.pos_of_get? he)
      intro e' he'
      have hbuilding := ((hs.queues q).building_iff he').mp hmem
      rw [Entrant.sight, Entrant.sight, hbuilding]
      rfl
  | openQueue listeners =>
      refine ⟨fun n hn _ => hn, fun j => ?_⟩
      rw [queue_openQueue]
      split
      case isTrue hj =>
        have hnone : s.queue j = .empty := List.getD_eq_default _ _ (Nat.le_of_eq hj.symm)
        rw [hnone]
        exact ⟨rfl, rfl, fun id => congrArg _ (Queue.get?_congr rfl id)⟩
      case isFalse => exact .refl _
  | listen q p => exact withQueue ⟨rfl, rfl, fun id => congrArg _ (Queue.get?_congr rfl id)⟩
  | subscribe p => exact withPool fun _ hn _ => hn
  | watch p item =>
      rcases watch_cases s p item with h | ⟨e, he, h⟩
      · exact alike h
      · exact h ▸ withQueue (.update (Queue.pos_of_get? he) fun _ _ => rfl)

/-- Keeping promises is of this kind too. -/
theorem keepPromises (q : Nat) (made : List Nat) (s : Scheduler) :
    Narrows s (made.foldl (keepPromise q) s) := by
  refine keepPromises_preserve (fun hs => hs.trans (alike (.log _ _))) (fun {u id e a} he _ hs => ?_) made
    (alike (.refl s))
  apply hs.trans
  apply Narrows.trans _ (alike (settle_alike he _))
  exact withQueue (.update (Queue.pos_of_get? he) fun _ _ => rfl)

/-- Built-in blockers were built in before. -/
theorem builtIn (h : Narrows s t) (ht : t.BuiltIn q) : s.BuiltIn q := by
  intro e he b hb
  have hback : (t.queue q).SameSight (s.queue q) :=
    ⟨(h.sight q).pending.symm, (h.sight q).building.symm, fun id => ((h.sight q).items id).symm⟩
  obtain ⟨e', he', hitem⟩ := hback.pendingEntrant he
  exact ht e' he' b (hitem ▸ hb)

/-- If nothing could go before, nothing can go afterwards. -/
theorem served (h : Narrows s t) (ht : t.BuiltIn q) (hs : s.Served q) : t.Served q := by
  intro judge n hn hidle e he hfree
  obtain ⟨e₀, he₀, hitem⟩ := (h.sight q).pendingEntrant he
  rw [← hitem]
  apply hs judge n (h.idle n hn hidle) hidle e₀ he₀
  intro b hb
  have hbefore := b.verdict_congr (ht e he b (hitem ▸ hb)) h.sight judge judge q ⟨q, e.item.id⟩
  rw [hitem, ← hbefore]
  exact hfree b (hitem ▸ hb)

end Narrows

namespace Answered

variable {item : ItemRef} {bs : List Blocker} {v : Verdict}

/-- What a built-in blocker answers in a state that is alike, it answers now, whatever parties say. -/
theorem verdict_alike (hb : ∀ b ∈ bs, b.isBuiltIn = true) (judge judge' : Judge) {b : Blocker} (hmem : b ∈ bs)
    (hst : Alike s t) : b.verdict judge' s q item = b.verdict judge t q item :=
  b.verdict_congr (hb b hmem) (Narrows.alike hst.symm).sight judge judge' q item

/-- If built-in blockers let an item go, all of them do so now. -/
theorem free (hb : ∀ b ∈ bs, b.isBuiltIn = true) (h : Answered judge s q item bs .free) (judge' : Judge) :
    ∀ b ∈ bs, b.verdict judge' s q item = .free := by
  intro b hmem
  obtain ⟨t, hst, hv⟩ := h b hmem
  exact (verdict_alike hb judge judge' hmem hst).trans hv

/-- If built-in blockers hold an item back, one of them does so now. -/
theorem held (hb : ∀ b ∈ bs, b.isBuiltIn = true) {r : String} (h : Answered judge s q item bs (.held r))
    (judge' : Judge) : ∃ b ∈ bs, b.verdict judge' s q item = .held r := by
  obtain ⟨before, b, after, rfl, -, t, hst, hv⟩ := h
  have hmem : b ∈ before ++ b :: after := List.mem_append_right _ List.mem_cons_self
  exact ⟨b, hmem, (verdict_alike hb judge judge' hmem hst).trans hv⟩

/-- Built-in blockers do not fail. -/
theorem not_failed (hb : ∀ b ∈ bs, b.isBuiltIn = true) (f : Fault) :
    ¬ Answered judge s q item bs (.failed f) := by
  rintro ⟨before, b, after, rfl, -, t, -, hv⟩
  exact b.verdict_ne_failed (hb b (List.mem_append_right _ List.mem_cons_self)) judge q item f hv

end Answered

/-- Matching does not fail for built-in blockers. -/
theorem Exhausted.fault_eq_none {m : Matched} (h : Exhausted judge q m) (hb : m.state.BuiltIn q) :
    m.fault = none := by
  rw [Option.eq_none_iff_forall_ne_some]
  intro f hf
  obtain ⟨e, he, hanswered⟩ := h.failed f hf
  exact Answered.not_failed (hb e he) f hanswered

/-- Matching leaves nothing behind that can go. -/
theorem published_served (hs : s.WellFormed) (judge : Judge) (q : Nat) (hb : (s.published judge q).BuiltIn q) :
    (s.published judge q).Served q := by
  have hexhausted := matchItems_exhausted hs judge q
  have hkept := Narrows.keepPromises q (matchItems judge q s).made (matchItems judge q s).state
  have hb' := hkept.builtIn hb
  apply hkept.served hb
  intro judge' n hn hidle e he hfree
  rcases hexhausted.refused (hexhausted.fault_eq_none hb') n hn hidle e he with ⟨r, hheld⟩ | ⟨-, hmeets⟩
  · obtain ⟨b, hmem, hv⟩ := hheld.held (hb' e he) judge'
    rw [hfree b hmem] at hv
    cases hv
  · exact hmeets

namespace Served

/-- Where nothing can go, no node and item are eligible. -/
theorem not_eligible (hs : s.WellFormed) (h : s.Served q) (hb : s.BuiltIn q) {n : Node} {e : Entrant} :
    ¬ Eligible judge s q n e := by
  intro hfit
  have he : e ∈ (s.queue q).pendingEntrants :=
    ((hs.queues q).mem_pendingEntrants).mpr ⟨hfit.known, hfit.pending⟩
  have hmeets := h judge n hfit.registered hfit.idle e he (hfit.free.free (hb e he) judge)
  rw [hfit.meets] at hmeets
  cases hmeets

/-- Where nothing can go, matching assigns nothing, fails for no blocker and tells nobody. -/
theorem maintain (hs : s.WellFormed) (h : s.Served q) (hb : s.BuiltIn q) (judge : Judge) :
    ∃ t, s.maintain judge q = .done t (.ok []) ∧ Alike s t := by
  cases hmoments : matchMoments judge q s with
  | nil =>
      have hmade : (matchItems judge q s).made = [] := by rw [matchItems_made, hmoments, List.map_nil]
      have halike := matchItems_alike hs hmade
      have hfault := (matchItems_exhausted hs judge q).fault_eq_none ((Narrows.alike halike.symm).builtIn hb)
      refine ⟨(matchItems judge q s).state, ?_, halike⟩
      simp [Scheduler.maintain, announce, hmade, hfault, tellListeners, Dialogue.andThen]
  | cons m moments =>
      have hassigns := matchItems_assigns hs judge q
      rw [hmoments] at hassigns
      cases hassigns with
      | next halike hfit _ =>
          have hbuiltIn := (Narrows.alike halike.symm).builtIn hb
          have hserved := (Narrows.alike halike).served hbuiltIn h
          exact absurd hfit (hserved.not_eligible (hs.alike halike) hbuiltIn)

/-- Where nothing can go, no idle node satisfies the label of an item that is let go. -/
theorem idleMatching_isEmpty (h : s.Served q) {e : Entrant} (he : e ∈ (s.queue q).pendingEntrants)
    (hfree : ∀ b ∈ e.item.blockers, b.verdict judge s q ⟨q, e.item.id⟩ = .free) :
    (s.pool.idleMatching e.item.label).isEmpty = true := by
  rw [List.isEmpty_iff, Pool.idleMatching, List.filter_eq_nil_iff]
  intro n hn hfit
  rw [Bool.and_eq_true, Node.isIdle, beq_iff_eq] at hfit
  have hmeets := h judge n hn hfit.1 e he hfree
  rw [hfit.2] at hmeets
  cases hmeets

/-- Where nothing can go, a pending item waits for a reason of its own, and never just behind others. -/
theorem whyPending (hs : s.WellFormed) (h : s.Served q) (hb : s.BuiltIn q) (judge : Judge) {e : Entrant}
    (he : e ∈ (s.queue q).pendingEntrants) :
    ∃ reason, (s.whyPending judge q ⟨q, e.item.id⟩).2 = .ok (some reason) ∧
      reason ≠ "Waiting behind earlier items for a matching node" := by
  obtain ⟨hget, hid⟩ := (hs.queues q).mem_pendingEntrants.mp he
  have hknown : s.get? ⟨q, e.item.id⟩ = some e := hget
  have hstate := ((hs.queues q).pending_iff hget).mp hid
  obtain ⟨halike, hanswered⟩ := ask_spec judge s q ⟨q, e.item.id⟩ e.item.blockers
  have hother {reason : String}
      (hreason : reason.toList ≠ "Waiting behind earlier items for a matching node".toList) :
      reason ≠ "Waiting behind earlier items for a matching node" := mt (congrArg String.toList) hreason
  simp only [Scheduler.whyPending, hknown, hstate, ne_eq, not_true_eq_false, if_false]
  split
  case h_1 t f hask =>
    rw [hask] at hanswered
    exact absurd hanswered (Answered.not_failed (hb e he) f)
  case h_2 => exact ⟨_, rfl, hother (by simp)⟩
  case h_3 t hask =>
    rw [hask] at halike hanswered
    have hempty := h.idleMatching_isEmpty he (hanswered.free (hb e he) judge)
    rw [halike.pool, hempty, if_pos rfl]
    refine ⟨_, rfl, ?_⟩
    split
    · exact hother (by simp)
    · exact hother (by simp)

end Served

/-- If there is one queue at the most and its blockers are built in, nothing that can go is left in it. -/
def Calm (s : Scheduler) : Prop := s.queues.length ≤ 1 → s.BuiltIn 0 → s.Served 0

/-- Matching brings calm, and mild changes keep it. -/
theorem Restored.calm : Restored Calm where
  closed {s} hnone _ _ judge n _ _ e he := by
    have hempty : s.queue 0 = .empty := by rw [queue, hnone, List.getD_nil]
    rw [hempty] at he
    exact absurd he List.not_mem_nil
  alike h hcalm hone hb :=
    (Narrows.alike h).served hb (hcalm (h.queues ▸ hone) ((Narrows.alike h).builtIn hb))
  mild hs h hcalm hone hb := by
    have hnarrows := Narrows.mild hs h
    have hfewer := Nat.le_trans (Grows.mild h).queues hone
    exact hnarrows.served hb (hcalm hfewer (hnarrows.builtIn hb))
  matched {s q} judge hs hq hone hb := by
    have hgrows := (Grows.published hs judge q).queues
    obtain rfl : q = 0 := by omega
    exact published_served hs judge 0 hb

end Scheduler

/-- In a run with one queue and built-in blockers in which nobody fails, nothing that can go is left behind: no
idle node satisfies the label of a pending item that its blockers let go, so matching again assigns nothing and
changes nothing, and no item waits just behind others. This holds whenever an operation returns, also to a
listener that called it. Only where parties have subscribed to the pool, one that is told of an available node
ahead of the queue still finds the node waiting for the queue. -/
theorem Config.run_served (moves : List Move) (hone : (run moves).state.queues.length ≤ 1)
    (hbuiltIn : (run moves).state.BuiltIn 0) (hquiet : ∀ f, .answer (some f) ∉ moves)
    (hturn : (∃ p, .party p ∈ (run moves).state.pool.subscribers) →
      ∀ w ∈ (run moves).waiting.head?, ¬ w.news.isAhead w.told) :
    (run moves).state.Served 0 ∧ ∀ judge,
      (∃ t, (run moves).state.maintain judge 0 = .done t (.ok []) ∧ Scheduler.Alike (run moves).state t) ∧
      ∀ e ∈ ((run moves).state.queue 0).pendingEntrants,
        ∃ reason, ((run moves).state.whyPending judge 0 ⟨0, e.item.id⟩).2 = .ok (some reason) ∧
          reason ≠ "Waiting behind earlier items for a matching node" := by
  have hbound := run_bound .calm fun f hf => absurd hf (hquiet f)
  have hcalm : Scheduler.Calm (run moves).state := by
    apply hbound.calm
    intro w hw
    have hheld := hbound.held w (List.mem_of_mem_head? hw)
    exact hheld.offered.resolve_right fun hahead => hturn (hheld.subscribed hahead) w hw hahead
  have hserved := hcalm hone hbuiltIn
  refine ⟨hserved, fun judge => ⟨?_, fun e he => ?_⟩⟩
  · exact hserved.maintain hbound.wellFormed hbuiltIn judge
  · exact hserved.whyPending hbound.wellFormed hbuiltIn judge he

/-- An item that waits for a task to end stays pending although a node is idle. -/
theorem Config.run_served_behind_building_task :
    let moves : List Move :=
      [.ask .lenient (.openQueue [0]), .ask .lenient (.register "a" (.parts [])),
        .ask .lenient (.submit 0 (.plain .none) "t" []),
        .ask .lenient (.submit 0 (.plain .none) "u" [.task "t" false]),
        .ask .lenient (.register "b" (.parts [])), .answer none]
    ((run moves).state.queue 0).pending = [2] ∧ (run moves).state.pool.idle.map Node.name = ["b"] ∧
      (run moves).state.Served 0 := by
  refine ⟨by decide, by decide, (run_served _ (by decide) ?_ ?_ ?_).1⟩
  · unfold Scheduler.BuiltIn
    decide
  · intro f
    simp
  · intro _ w hw
    cases hw

end LabelScheduler
