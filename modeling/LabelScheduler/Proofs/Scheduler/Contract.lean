import LabelScheduler.Proofs.Scheduler.Effect

/-!
# Contracts with outside parties

While an operation waits for a party, the party may ask for further operations, so nothing is known of the
state in which it comes back but that effects lead there. A contract says which judges are heard, in which
states parties are told news, and how they are expected to come back. A dialogue keeps a contract if it proceeds
by effects and, as long as the parties come back as expected, tells them news in such states alone.
-/

namespace LabelScheduler

open Scheduler

/-- Which judges are heard, when parties are told news, and how they come back: told in the first state, in the
second one. -/
structure Contract where
  judges : Set Judge
  offer : Scheduler → News → Prop
  accept : Scheduler → News → Scheduler → Option Fault → Prop

namespace Dialogue

variable {α β : Type} {k : Contract} {s t : Scheduler}

/-- A dialogue that is begun in a state proceeds by effects and keeps the contract, and it ends with `post`. -/
def Keeps (k : Contract) (post : Scheduler → Except Fault α → Prop) : Dialogue α → Scheduler → Prop
  | .done t result, s => Effects k.judges s t ∧ post t result
  | .tell t news resume, s =>
    Effects k.judges s t ∧ k.offer t news ∧
      ∀ u f, Effects k.judges t u → k.accept t news u f → (resume u f).Keeps k post u

variable {d : Dialogue α} {post : Scheduler → Except Fault α → Prop}

/-- Effects may come before a dialogue. -/
theorem Keeps.head (hst : Effects k.judges s t) (h : d.Keeps k post t) : d.Keeps k post s := by
  cases d with
  | done u result => exact ⟨hst.trans h.1, h.2⟩
  | tell u news resume => exact ⟨hst.trans h.1, h.2⟩

/-- A dialogue that goes on after success keeps the contract if both of its parts do. -/
theorem Keeps.andThen {next : Scheduler → α → Dialogue β} {post' : Scheduler → Except Fault β → Prop}
    (h : d.Keeps k post s)
    (hok : ∀ t a, Effects k.judges s t → post t (.ok a) → (next t a).Keeps k post' t)
    (herror : ∀ t f, Effects k.judges s t → post t (.error f) → post' t (.error f)) :
    (d.andThen next).Keeps k post' s := by
  induction d generalizing s with
  | done t result =>
      cases result with
      | ok a => exact .head h.1 (hok t a h.1 h.2)
      | error f => exact ⟨h.1, herror t f h.1 h.2⟩
  | tell t news resume ih =>
      refine ⟨h.1, h.2.1, fun u f hu hf => ih u f (h.2.2 u f hu hf) ?_ ?_⟩
      · exact fun v a hv => hok v a (h.1.trans (hu.trans hv))
      · exact fun v f hv => herror v f (h.1.trans (hu.trans hv))

end Dialogue

end LabelScheduler
