import LabelScheduler.Scheduler.Basic

/-!
# Reasons to wait

Before labels are matched, the blockers of an item are asked in their order, and the first reason
that one of them gives holds the item back. Blockers look at the state of a queue and never change
it; what an outside party says is given by a judge.
-/

namespace LabelScheduler

/-- The answer of a blocker. -/
inductive Verdict where
  | free
  | held (reason : String)
  | failed (f : Fault)
  deriving DecidableEq

/-- What outside parties answer when they are asked whether an item may go. -/
abbrev Judge := Party → Scheduler → ItemRef → Verdict

/-- Nobody outside holds an item back. -/
def Judge.lenient : Judge := fun _ _ _ => .free

namespace Blocker

/-- The answer of a blocker for an item, looking at the queue `view`. -/
def verdict (judge : Judge) (s : Scheduler) (view : Nat) (item : ItemRef) : Blocker → Verdict
  | .item awaited =>
    match s.get? awaited with
    | some e =>
      if e.state.isBuilding then .held ("upstream item " ++ e.item.text ++ " is building")
      else .free
    | none => .free
  | .task t queued =>
    if (s.queue view).isTaskBuilding t then .held ("upstream task '" ++ t ++ "' is building")
    else if queued && (s.queue view).isTaskQueued t (some item.id) then
      .held ("upstream task '" ++ t ++ "' is in the queue")
    else .free
  | .run r =>
    if (s.queue view).isRunBuilding r then .held ("run " ++ r.id ++ " is building") else .free
  | .party p => judge p s item

/-- The contact that asking a blocker makes. -/
def contact (item : ItemRef) : Blocker → List Contact
  | .party p => [.asked p item]
  | _ => []

end Blocker

namespace Scheduler

/-- Ask the blockers of an item until one does not let it go. -/
def ask (judge : Judge) (s : Scheduler) (view : Nat) (item : ItemRef) :
    List Blocker → Scheduler × Verdict
  | [] => (s, .free)
  | b :: bs =>
    let asked := (b.contact item).foldl record s
    match b.verdict judge asked view item with
    | .free => ask judge asked view item bs
    | v => (asked, v)

end Scheduler

end LabelScheduler
