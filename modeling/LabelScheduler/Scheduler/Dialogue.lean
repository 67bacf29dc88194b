import LabelScheduler.Scheduler.Basic

/-!
# Operations that talk to outside parties

While an operation runs, outside parties hear news, and each of them may work on the scheduler in
turn and may fail. An operation is therefore a dialogue: it is done, with a state and a result, or
it tells a party some news and goes on from the state and the fault that the party leaves.
-/

namespace LabelScheduler

/-- News for an outside party. -/
inductive News where
  | assigned (p : Party) (item : ItemRef)
  | available (p : Party) (node : Node)

/-- An operation with a result in `α`, in which outside parties have their say. -/
inductive Dialogue (α : Type) where
  | done (s : Scheduler) (result : Except Fault α)
  | tell (s : Scheduler) (news : News) (resume : Scheduler → Option Fault → Dialogue α)

namespace Dialogue

/-- Go on with a further operation, unless the first one failed. -/
def andThen {α β : Type} (d : Dialogue α) (next : Scheduler → α → Dialogue β) : Dialogue β :=
  match d with
  | .done s (.ok a) => next s a
  | .done s (.error f) => .done s (.error f)
  | .tell s news resume => .tell s news fun s' f => (resume s' f).andThen next

/-- Give a result, made from the last state, in place of that of the operation. -/
def returning {α β : Type} (d : Dialogue α) (result : Scheduler → β) : Dialogue β :=
  d.andThen fun s _ => .done s (.ok (result s))

/-- Carry the dialogue out, with the answers of the outside parties and what these remember. -/
def play {μ α : Type} (respond : μ → Scheduler → News → μ × Scheduler × Option Fault) :
    Dialogue α → μ → μ × Scheduler × Except Fault α
  | .done s result, m => (m, s, result)
  | .tell s news resume, m =>
    let reply := respond m s news
    (resume reply.2.1 reply.2.2).play respond reply.1

/-- Carry the dialogue out while the outside parties only listen. -/
def playSilent {α : Type} (d : Dialogue α) : Scheduler × Except Fault α :=
  (d.play (fun (m : Unit) s _ => (m, s, none)) ()).2

end Dialogue

end LabelScheduler
