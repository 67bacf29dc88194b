import LabelScheduler.Proofs.RunReference
import LabelScheduler.Proofs.Scheduler.SelfWaiting

/-!
# Items that wait for a run

While a run is building, no item of its queue that waits for the run is assigned: matching looks at the building
items, and in between nothing but matching assigns. Who waits for a run names it by its reference, so this helps only
if the reference is read as the same run, which it is unless there are blanks around the name of the task.
-/

namespace LabelScheduler

open Scheduler

namespace Scheduler

variable {judge : Judge} {judges : Set Judge} {reported : Set Nat} {s t : Scheduler} {q id id' : Nat} {n : Node}
  {e e' w : Entrant} {r : RunReference} {a : Assignment} {moments : List Moment} {item : ItemRef}

/-- The item is building, and it is this run. -/
structure Builds (s : Scheduler) (q id : Nat) (r : RunReference) (e : Entrant) : Prop where
  known : s.get? ⟨q, id⟩ = some e
  run : e.run = some r
  building : e.state.isBuilding = true

namespace Builds

/-- Journals and contacts do not matter. -/
theorem alike (h : s.Builds q id r e) (hst : Alike s t) : t.Builds q id r e :=
  ⟨(hst.get? _).trans h.known, h.run, h.building⟩

/-- Another item may be assigned, as a building one is not pending. -/
theorem assign (h : s.Builds q id r e) (hs : s.WellFormed) (hfit : Eligible judge s q n w) :
    (s.assign q n w).Builds q id r e := by
  have hother : id ≠ w.item.id := by
    rintro rfl
    have hbuilding := ((hs.queues q).building_iff h.known).mpr h.building
    exact (hs.queues q).not_building_of_pending hfit.pending hbuilding
  refine ⟨?_, h.run, h.building⟩
  rw [(Placed.single hs hfit).others ⟨q, id⟩ fun _ hid => hother (List.mem_singleton.mp hid), h.known]

/-- No item that waits for the run is eligible. -/
theorem not_awaited (h : s.Builds q id r e) (hs : s.WellFormed) (hfit : Eligible judge s q n w) :
    .run r ∉ w.item.blockers := by
  intro hwaits
  have hnumber := (hs.queues q).numbered h.known
  have hbuilding : e ∈ (s.queue q).buildingEntrants := by
    refine ((hs.queues q).mem_buildingEntrants).mpr ⟨hnumber ▸ h.known, ?_⟩
    exact ((hs.queues q).building_iff (hnumber ▸ h.known)).mpr h.building
  exact hfit.unblocked.runs r hwaits e hbuilding h.run

/-- No chain of assignments reaches an item that waits for the run. -/
theorem not_made (h : s.Builds q id r e) (hs : s.WellFormed) (hassigns : Assigns judge q s moments t)
    (hw : s.get? ⟨q, id'⟩ = some w) (hwaits : .run r ∈ w.item.blockers) : id' ∉ moments.map Moment.id := by
  induction hassigns generalizing w with
  | stop _ => exact List.not_mem_nil
  | @next s t m moments halike hfit _ ih =>
      have hcalm := hs.alike halike
      have hbuilds := h.alike halike
      have hw' := (halike.get? _).trans hw
      rw [List.map_cons, List.mem_cons, not_or]
      constructor
      · rintro rfl
        obtain rfl := Option.some.inj (hw'.symm.trans hfit.known)
        exact hbuilds.not_awaited hcalm hfit hwaits
      · obtain ⟨w', hlater, hitem⟩ := (Grows.effect (.assign (Set.mem_univ judge) hfit)).items hw'
        exact ih (hbuilds.assign hcalm hfit) (hcalm.assign _ hfit.pending) hlater (hitem ▸ hwaits)

/-- A change assigns no item that waits for a run which is building when the change begins. -/
theorem change (h : s.Builds q id r e) (hs : s.WellFormed) (hst : Change reported s t)
    (hw : t.get? ⟨q, id'⟩ = some w) (hwaits : .run r ∈ w.item.blockers) (ha : w.assignment = some a) :
    ∃ w₀, s.get? ⟨q, id'⟩ = some w₀ ∧ w₀.item = w.item ∧ w₀.assignment = some a := by
  cases hst.descent hs hw with
  | entered i _ hfresh =>
      subst hfresh
      cases ha
  | @stayed w₀ hw₀ hfate =>
      cases hfate with
      | assigned a' hpending =>
          obtain ⟨judge, hmade⟩ := hst.made_of_building hs hw₀ hpending hw rfl
          rw [matchItems_made] at hmade
          exact absurd hmade (h.not_made hs (matchItems_assigns hs judge q) hw₀ hwaits)
      | spared _ | cancelled _ | started _ _ | completed _ _ => exact ⟨w₀, hw₀, rfl, ha⟩

/-- What builds after a change and was not pending before it was building then. -/
theorem before (hs : s.WellFormed) (hst : Change reported s t) (he : s.get? ⟨q, id⟩ = some e)
    (hne : e.state ≠ .pending) (h : t.Builds q id r e') : s.Builds q id r e := by
  obtain ⟨e₁, he₁, hfate⟩ := hst.fate hs he
  obtain rfl := Option.some.inj (h.known.symm.trans he₁)
  have hrun : e.run = some r := by rw [← h.run, Entrant.run, Entrant.run, hfate.evolves.assignment hne]
  refine ⟨he, hrun, ?_⟩
  cases hfate with
  | spared _ => exact h.building
  | assigned _ hpending => exact absurd hpending hne
  | cancelled hpending => exact absurd hpending hne
  | started _ hbuilding | completed _ hbuilding => exact hbuilding

/-- Between two moments at which a run is building, no item that waits for the run has been assigned. -/
theorem changes (h : t.Builds q id r e') (hs : s.WellFormed) (hst : Changes reported s t)
    (he : s.get? ⟨q, id⟩ = some e) (hne : e.state ≠ .pending) (hw : t.get? ⟨q, id'⟩ = some w)
    (hwaits : .run r ∈ w.item.blockers) (ha : w.assignment = some a) :
    ∃ w₀, s.get? ⟨q, id'⟩ = some w₀ ∧ w₀.assignment = some a := by
  induction hst generalizing e' w with
  | refl => exact ⟨w, hw, ha⟩
  | tail hsteps hstep ih =>
      have hwell := hs.effects (Changes.effects hs hsteps)
      obtain ⟨e₁, he₁, hevolves⟩ := Changes.evolves hs hsteps he
      have hbefore := before hwell hstep he₁ (hevolves.state.ne_pending hne) h
      obtain ⟨w₁, hw₁, hitem, ha₁⟩ := hbefore.change hwell hstep hw hwaits ha
      exact ih hbefore hw₁ (hitem ▸ hwaits) ha₁

end Builds

/-- An item that is a run is not pending, and it is a run of its own task. -/
theorem Effects.task_of_run (h : Effects judges .empty s) (he : s.get? item = some e) (hrun : e.run = some r) :
    r.task = e.item.task := by
  obtain ⟨a, ha, rfl⟩ := Option.map_eq_some_iff.mp hrun
  obtain ⟨_, _, _, _, hmatches, hitem, _⟩ := h.matches he ha
  rw [hmatches.task, hitem]

end Scheduler

/-- The reference to a run that an item has become is written for this run alone. It is read as the run of the same
number of the trimmed task, so as this run exactly if there are no blanks around the name of the task, and the number
is not too long. If it is read as this run, then no item of the queue that waits for the run which the reference is
read as is assigned as long as the run is building, whatever else happens. -/
theorem Config.run_waits_for_reference (earlier later : List Move) {q id : Nat} {e : Entrant} {r : RunReference}
    (he : (run earlier).state.get? ⟨q, id⟩ = some e) (hrun : e.run = some r) :
    let s := (run earlier).state
    let t := (run (earlier ++ later)).state
    (∀ r' : RunReference, r'.id = r.id → r' = r) ∧
    (∀ r', RunReference.ofId r.id = .ok r' ↔
      r.number < 10 ^ Text.numeralLimit ∧ r'.task.text = Text.trim e.item.task.text ∧ r'.number = r.number) ∧
    (RunReference.ofId r.id = .ok r ↔
      Text.trim e.item.task.text = e.item.task.text ∧ r.number < 10 ^ Text.numeralLimit) ∧
    (RunReference.ofId r.id = .ok r → ∀ e', t.get? ⟨q, id⟩ = some e' → e'.state.isBuilding = true →
      ∀ id' w r' a, t.get? ⟨q, id'⟩ = some w → RunReference.ofId r.id = .ok r' → .run r' ∈ w.item.blockers →
        w.assignment = some a → ∃ w₀, s.get? ⟨q, id'⟩ = some w₀ ∧ w₀.assignment = some a) := by
  intro s t
  have htask : r.task = e.item.task := Effects.task_of_run (run_effects earlier) he hrun
  refine ⟨fun r' hid => RunReference.id_injective hid, fun r' => ?_, ?_, ?_⟩
  · rw [← htask]
    exact RunReference.ofId_id_eq_ok_iff
  · rw [← htask]
    exact RunReference.ofId_id_eq_self_iff
  · intro hself e' he' hbuilding id' w r' a hw hread hwaits ha
    obtain rfl := Except.ok.inj (hself.symm.trans hread)
    have hwell := run_wellFormed earlier
    have hchanges := run_append_changes earlier later
    have hne : e.state ≠ .pending := by
      obtain ⟨a', ha', -⟩ := Option.map_eq_some_iff.mp hrun
      cases run_consistent earlier _ e he with
      | waits _ hnone _ | withdrawn _ hnone _ => exact nomatch hnone.symm.trans ha'
      | given _ hstate _ _ => exact hstate.1
    have hrun' : e'.run = some r := by
      obtain ⟨e₁, he₁, hevolves⟩ := hchanges.evolves hwell he
      obtain rfl := Option.some.inj (he'.symm.trans he₁)
      rw [← hrun, Entrant.run, Entrant.run, hevolves.assignment hne]
    have hbuilds : t.Builds q id r e' := ⟨he', hrun', hbuilding⟩
    exact hbuilds.changes hwell hchanges he hne hw hwaits ha

/-- While the first run of a task is building, an item that waits for it by its reference stays pending, although a
node is idle. -/
theorem Config.run_waits_for_reference_pending :
    let r : RunReference := ⟨⟨"t", by decide⟩, 1, by decide⟩
    let earlier : List Move :=
      [.ask .lenient (.openQueue []), .ask .lenient (.register "a" (.parts [])),
        .ask .lenient (.register "b" (.parts [])), .ask .lenient (.submit 0 (.plain .none) "t" [])]
    let t := (run (earlier ++ [.ask .lenient (.submit 0 (.plain .none) "u" [.run r])])).state
    RunReference.ofId r.id = .ok r ∧ (t.queue 0).building = [1] ∧ t.pool.nodes.map Node.state = [.busy, .idle] ∧
      ∀ w, t.get? ⟨0, 2⟩ = some w → w.assignment = none := by
  intro r earlier t
  have hread : RunReference.ofId r.id = .ok r := by decide
  obtain ⟨e, he, hrun⟩ : ∃ e, (run earlier).state.get? ⟨0, 1⟩ = some e ∧ e.run = some r := by
    simpa only [Option.any_eq_true, beq_iff_eq] using
      (by decide : ((run earlier).state.get? ⟨0, 1⟩).any (fun e => e.run == some r) = true)
  obtain ⟨e', he', hbuilding⟩ : ∃ e', t.get? ⟨0, 1⟩ = some e' ∧ e'.state.isBuilding = true := by
    simpa only [Option.any_eq_true] using
      (by decide : (t.get? ⟨0, 1⟩).any (fun e => e.state.isBuilding) = true)
  have hblockers : (t.get? ⟨0, 2⟩).map (fun w => w.item.blockers) = some [.run r] := by decide
  obtain ⟨-, -, -, hwaits⟩ := run_waits_for_reference earlier
    [.ask .lenient (.submit 0 (.plain .none) "u" [.run r])] he hrun
  refine ⟨hread, by decide, by decide, fun w hw => Option.eq_none_iff_forall_ne_some.mpr fun a ha => ?_⟩
  rw [hw, Option.map_some, Option.some.injEq] at hblockers
  obtain ⟨w₀, hw₀, -⟩ := hwaits hread e' he' hbuilding 2 w r a hw hread (hblockers ▸ List.mem_cons_self) ha
  have hnew : (run earlier).state.get? ⟨0, 2⟩ = none := by decide
  exact nomatch hnew.symm.trans hw₀

/-- The blanks around the name of a task are part of the name, but not of what the reference to its run is read as: so
an item that waits for the run by its reference is assigned while the run is building. -/
theorem Config.run_padded_reference_not_awaited :
    let r : RunReference := ⟨⟨" t ", by decide⟩, 1, by decide⟩
    let r' : RunReference := ⟨⟨"t", by decide⟩, 1, by decide⟩
    let t := (run [.ask .lenient (.openQueue []), .ask .lenient (.register "a" (.parts [])),
      .ask .lenient (.register "b" (.parts [])), .ask .lenient (.submit 0 (.plain .none) " t " []),
      .ask .lenient (.submit 0 (.plain .none) "u" [.run r'])]).state
    (t.get? ⟨0, 1⟩).map (fun e => (e.run, e.state)) = some (some r, .assigned) ∧
      RunReference.ofId r.id = .ok r' ∧ r' ≠ r ∧
      (t.get? ⟨0, 2⟩).map (fun w => (w.item.blockers, w.node, w.state)) =
        some ([.run r'], some "b", .assigned) := by
  decide

end LabelScheduler
