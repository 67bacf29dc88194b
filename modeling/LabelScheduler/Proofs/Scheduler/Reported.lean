import LabelScheduler.Proofs.Scheduler.Turn

/-!
# Which fault is reported

An operation may meet several faults: a blocker fails while items are matched, and after that listeners fail that
are told of assignments. The first party that fails while it is told news gives the fault of every operation. So it
takes the place of a blocker's fault, although the blocker failed before; a blocker's fault is reported only if no
party failed.
-/

namespace LabelScheduler

open Scheduler

/-- In every way in which an operation may go on, the first party that fails while it is told news gives the fault
of the operation. Matching succeeds only if no blocker failed either, and reports a blocker's fault only if no
listener failed. It is the same with every other operation that is not refused: when it has opened, its queue or all who
hear of available nodes have their turns, and if no party fails in these, then the operation fails with the fault of the
first blocker that does, and if no blocker fails either, it succeeds. -/
theorem Request.perform_reports (judge : Judge) (s : Scheduler) :
    (∀ r xs t result f, (Request.perform judge s r).Course xs t result → firstFault xs = some f →
      result = .error f) ∧
    (∀ q xs t result, (s.maintain judge q).Course xs t result →
      result = ((firstFault xs).or (matchItems judge q s).fault).elim (.ok (matchItems judge q s).made) .error) ∧
    ∀ r xs t result, (Request.perform judge s r).Course xs t result → r.refusal s = none →
      ∃ v u serial rounds fault, s.Opening r v ∧ Alike v u ∧ Turns judge serial (r.audience s) u rounds xs t fault ∧
        (∀ q, r.audience s = [.queue q] → rounds = [(q, u)]) ∧
        fault = (firstFault xs).or (firstBlockerFault judge rounds) ∧
        result.map (fun _ => ()) = fault.elim (.ok ()) .error := by
  refine ⟨fun r xs t result f hcourse hfirst => ?_, fun q xs t result hcourse => (maintain_course hcourse).result,
    fun r xs t result hcourse hr => ?_⟩
  · have hopens := r.perform_opens judge s
    cases hr : r.refusal s with
    | some f' =>
        obtain ⟨u, hdone⟩ := hopens.of_refusal hr
        rw [hdone] at hcourse
        cases hcourse
        cases hfirst
    | none =>
        obtain ⟨v, u, serial, rounds, fault, -, -, hturns, hresult⟩ := hopens.turns hr hcourse
        rw [hturns.fault_eq, hfirst, Option.some_or] at hresult
        cases result with
        | ok a => cases hresult
        | error f' => exact congrArg Except.error (Except.error.inj hresult)
  · obtain ⟨v, u, serial, rounds, fault, hopening, hnoted, hturns, hresult⟩ :=
      (r.perform_opens judge s).turns hr hcourse
    exact ⟨v, u, serial, rounds, fault, hopening, hnoted, hturns, fun q haudience => (haudience ▸ hturns).rounds_eq,
      hturns.fault_eq, hresult⟩

/-- A party fails as a blocker, and after that a listener fails: the fault of the listener is reported. An item is
submitted, the same party fails as the queue is matched, and no listener does: the fault of the blocker is reported. -/
theorem Request.perform_reports_listener :
    let s := (Config.run Config.twoHeldBack).state
    let policy : Fault := .outside "ValueError" "policy"
    let judge := Judge.failing 3 policy
    let r : Request := .submit 0 (.plain .none) "v" []
    ((matchItems judge 0 s).fault = some policy ∧ ∃ xs t result,
      (Request.perform judge s (.maintain 0)).Course xs t result ∧
        firstFault xs = some (.outside "RuntimeError" "listener") ∧
        result = .error (.outside "RuntimeError" "listener")) ∧
    ∃ xs t result, (Request.perform judge s r).Course xs t result ∧ r.refusal s = none ∧ firstFault xs = none ∧
      result.map (fun _ => ()) = .error policy ∧
      ∃ v u serial rounds, s.Opening r v ∧ Alike v u ∧ Turns judge serial [.queue 0] u rounds xs t (some policy) ∧
        rounds = [(0, u)] ∧ some policy = firstBlockerFault judge rounds := by
  intro s policy judge r
  obtain ⟨hparties, -, hblockers⟩ := perform_reports judge s
  refine ⟨⟨by decide, ?_⟩, ?_⟩
  · obtain ⟨xs, hcourse, hback⟩ := Dialogue.Course.exists_of_play
      (fun (_ : Unit) s _ => ((), s, some (.outside "RuntimeError" "listener"))) (fun _ _ _ => .refl)
      (Request.perform judge s (.maintain 0)) ()
    obtain ⟨first, hmaintain, -⟩ := hcourse.of_map
    have htold := (maintain_course hmaintain).tells
    have hpairs : ((matchItems judge 0 s).made.flatMap fun id =>
        ((s.published judge 0).queue 0).listeners.map (id, ·)) = [(1, 0), (1, 1)] := by decide
    rw [hpairs] at htold
    have hfirst : firstFault xs = some (.outside "RuntimeError" "listener") := by
      cases htold with
      | @cons _ x =>
          obtain ⟨-, hanswer⟩ := hback x List.mem_cons_self
          have hfault : x.fault = some (.outside "RuntimeError" "listener") := (congrArg Prod.snd hanswer).symm
          rw [firstFault, List.findSome?_cons, hfault]
    exact ⟨xs, _, _, hcourse, hfirst, hparties _ xs _ _ _ hcourse hfirst⟩
  · obtain ⟨xs, hcourse, hback⟩ := Dialogue.Course.exists_of_play
      (fun (_ : Unit) s _ => ((), s, none)) (fun _ _ _ => .refl) (Request.perform judge s r) ()
    have hr : r.refusal s = none := by decide
    have hnone : firstFault xs = none := by
      refine List.findSome?_eq_none_iff.mpr fun x hx => ?_
      obtain ⟨-, hanswer⟩ := hback x hx
      exact (congrArg Prod.snd hanswer).symm
    have hresult : (((Request.perform judge s r).play (fun (_ : Unit) s _ => ((), s, none)) ()).2.2.map
        fun _ => ()) = .error policy := by decide
    obtain ⟨v, u, serial, rounds, fault, hopening, hnoted, hturns, hround, hfault, hreported⟩ :=
      hblockers r xs _ _ hcourse hr
    obtain rfl : fault = some policy := by
      rw [hresult] at hreported
      cases fault with
      | none => cases hreported
      | some f => exact congrArg some (Except.error.inj hreported).symm
    rw [hnone, Option.none_or] at hfault
    exact ⟨xs, _, _, hcourse, hr, hnone, hresult, v, u, serial, rounds, hopening, hnoted, hturns, hround 0 rfl, hfault⟩

/-- It is not true that matching reports the first fault that there is, which is that of a blocker if one fails. -/
theorem Config.run_blocker_fault_replaced :
    ¬ ∀ moves judge q xs t result f, ((run moves).state.maintain judge q).Course xs t result →
      (matchItems judge q (run moves).state).fault.or (firstFault xs) = some f → result = .error f := by
  intro hfirst
  let judge := Judge.failing 3 (.outside "ValueError" "policy")
  obtain ⟨xs, hcourse, -⟩ := Dialogue.Course.exists_of_play
    (fun (_ : Unit) s _ => ((), s, some (.outside "RuntimeError" "listener"))) (fun _ _ _ => .refl)
    ((run twoHeldBack).state.maintain judge 0) ()
  have hfault : (matchItems judge 0 (run twoHeldBack).state).fault = some (.outside "ValueError" "policy") := by
    decide
  have hpolicy := hfirst twoHeldBack judge 0 xs _ _ _ hcourse (by rw [hfault, Option.some_or])
  have hlistener : (((run twoHeldBack).state.maintain judge 0).play
      (fun (_ : Unit) s _ => ((), s, some (.outside "RuntimeError" "listener"))) ()).2.2 =
      .error (.outside "RuntimeError" "listener") := by decide
  rw [hlistener] at hpolicy
  exact absurd (Except.error.inj hpolicy) (by decide)

end LabelScheduler
