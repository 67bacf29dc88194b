import LabelScheduler.Proofs.Scheduler.Announcement
import LabelScheduler.Proofs.Scheduler.Opening

/-!
# Turns

Those in the audience of an operation have their turns one after the other, each of them in the state that the one
before it left: a queue has a round of matching, whose listeners are told of the assignments, and a party is told of the
node that has become available. Each turn ends where the next one begins, and the first that fails is the last one. So
an operation fails with the fault of the party that failed first, or if none did, with that of the first blocker that
failed in any of its rounds.
-/

namespace LabelScheduler

open Scheduler

/-- The fault of the first blocker that failed as these queues were matched, each in this state. -/
def firstBlockerFault (judge : Judge) (rounds : List (Nat × Scheduler)) : Option Fault :=
  rounds.findSome? fun round => (matchItems judge round.1 round.2).fault

namespace Scheduler

variable {judge : Judge} {serial q : Nat} {subs : List Subscriber} {s t u : Scheduler} {rounds : List (Nat × Scheduler)}
  {xs : List Exchange} {fault : Option Fault}

/-- The subscribers have their turns from the first state to the last one, with a node of this number to tell parties
of. Each queue that matches is listed with the state in which it does, all news are listed with how the parties came
back, and the fault is that with which a turn failed. -/
inductive Turns (judge : Judge) (serial : Nat) : List Subscriber → Scheduler → List (Nat × Scheduler) →
    List Exchange → Scheduler → Option Fault → Prop where
  | done (s : Scheduler) : Turns judge serial [] s [] [] s none
  | round {q : Nat} {subs : List Subscriber} {s u t : Scheduler} {rounds : List (Nat × Scheduler)}
      {xs ys : List Exchange} {made : List Nat} {fault : Option Fault} (h : Maintained judge q s xs u (.ok made))
      (hrest : Turns judge serial subs u rounds ys t fault) :
      Turns judge serial (.queue q :: subs) s ((q, s) :: rounds) (xs ++ ys) t fault
  | roundFails {q : Nat} {subs : List Subscriber} {s t : Scheduler} {xs : List Exchange} {f : Fault}
      (h : Maintained judge q s xs t (.error f)) :
      Turns judge serial (.queue q :: subs) s [(q, s)] xs t (some f)
  | news {p : Party} {subs : List Subscriber} {s t : Scheduler} {rounds : List (Nat × Scheduler)} {x : Exchange}
      {xs : List Exchange} {n : Node} {fault : Option Fault} (hnews : x.news = .available p n)
      (hserial : n.serial = serial) (htold : Alike s x.told) (hback : x.told.Reaches x.back) (hfault : x.fault = none)
      (hrest : Turns judge serial subs x.back rounds xs t fault) :
      Turns judge serial (.party p :: subs) s rounds (x :: xs) t fault
  | newsFails {p : Party} {subs : List Subscriber} {s : Scheduler} {x : Exchange} {n : Node} {f : Fault}
      (hnews : x.news = .available p n) (hserial : n.serial = serial) (htold : Alike s x.told)
      (hback : x.told.Reaches x.back) (hfault : x.fault = some f) :
      Turns judge serial (.party p :: subs) s [] [x] x.back (some f)

/-- All who hear of an available node have their turns. -/
theorem notify_turns {node : Node} {result : Except Fault Unit} (h : (s.notify judge node subs).Course xs t result) :
    ∃ rounds fault, Turns judge node.serial subs s rounds xs t fault ∧ result = fault.elim (.ok ()) .error := by
  induction subs generalizing s xs with
  | nil =>
      cases h with
      | done => exact ⟨[], none, .done _, rfl⟩
  | cons sub subs ih =>
      cases sub with
      | queue q =>
          rcases Dialogue.Course.of_andThen h with ⟨f, hround, rfl⟩ | ⟨before, after, u, made, rfl, hround, hrest⟩
          · exact ⟨_, some f, .roundFails (maintain_course hround), rfl⟩
          · obtain ⟨rounds, fault, hturns, hresult⟩ := ih hrest
            exact ⟨_, fault, .round (maintain_course hround) hturns, hresult⟩
      | party p =>
          cases h with
          | @tell _ u _ _ _ f xs _ hparty hrest =>
              have hserial := s.pool.registered?_getD_serial node
              cases f with
              | some f =>
                  cases hrest
                  exact ⟨[], some f, .newsFails rfl hserial ⟨rfl, rfl⟩ hparty rfl, rfl⟩
              | none =>
                  obtain ⟨rounds, fault, hturns, hresult⟩ := ih hrest
                  exact ⟨rounds, fault, .news rfl hserial ⟨rfl, rfl⟩ hparty rfl hturns, hresult⟩

namespace Turns

/-- The turns fail with the fault of the first party that failed, or else with that of the first blocker. -/
theorem fault_eq (h : Turns judge serial subs s rounds xs t fault) :
    fault = (firstFault xs).or (firstBlockerFault judge rounds) := by
  induction h with
  | done => rfl
  | @round q _ s _ _ _ xs _ _ _ hround _ ih =>
      obtain ⟨hparties, hblockers⟩ := hround.no_fault
      rw [ih, firstFault_append, hparties, Option.none_or, firstBlockerFault, firstBlockerFault, List.findSome?_cons,
        hblockers]
  | @roundFails q _ s _ xs f hround =>
      have hresult := hround.result
      rw [firstBlockerFault, List.findSome?_cons, List.findSome?_nil]
      cases hfirst : (firstFault xs).or (matchItems judge q s).fault with
      | none => rw [hfirst] at hresult; cases hresult
      | some f' =>
          rw [hfirst] at hresult
          obtain rfl := Except.error.inj hresult
          cases hblockers : (matchItems judge q s).fault <;> rw [hblockers] at hfirst <;> exact hfirst.symm
  | news hnews hserial htold hback hfault hrest ih => rw [ih, firstFault, firstFault, List.findSome?_cons, hfault]
  | newsFails hnews hserial htold hback hfault => rw [firstFault, List.findSome?_cons, hfault, Option.some_or]

/-- If a queue alone has a turn, its round is the only one. -/
theorem rounds_eq (h : Turns judge serial [.queue q] s rounds xs t fault) : rounds = [(q, s)] := by
  cases h with
  | round hround hrest =>
      cases hrest
      rfl
  | roundFails hround => rfl

end Turns

/-- An operation that is not refused opens, and then those in its audience have their turns; a fault in these is that of
the operation. -/
theorem Opens.turns {α : Type} {r : Request} {d : Dialogue α} {result : Except Fault α} (h : Opens judge s r d)
    (hr : r.refusal s = none) (hcourse : d.Course xs t result) :
    ∃ v u serial rounds fault, s.Opening r v ∧ Alike v u ∧ Turns judge serial (r.audience s) u rounds xs t fault ∧
      result.map (fun _ => ()) = fault.elim (.ok ()) .error := by
  cases h with
  | refused hrefused => rw [hr] at hrefused; cases hrefused
  | opened node answer _ hopening hnoted =>
      obtain ⟨first, hnotify, rfl⟩ := hcourse.of_returning
      obtain ⟨rounds, fault, hturns, rfl⟩ := notify_turns hnotify
      exact ⟨_, _, node.serial, rounds, fault, hopening, hnoted, hturns, by cases fault <;> rfl⟩

end Scheduler

end LabelScheduler
