import LabelScheduler.Proofs.Scheduler.Refinement

/-!
# What is noted without a warning

Reading labels, submitting, matching, keeping promises and completing note nothing that is a warning or worse.
For matching this follows from what a pass does: it is noted, asks blockers, and makes assignments.
-/

namespace LabelScheduler

/-- The event is no warning and nothing worse. -/
def Event.isQuiet (e : Event) : Bool := e.level.rank < Level.warning.rank

/-- The events of reading a label are no warnings. -/
theorem Registry.parseEvents_quiet (r : Registry) (text : String) :
    ∀ e ∈ r.parseEvents text, e.isQuiet = true := by
  rw [parseEvents, List.forall_mem_append, List.forall_mem_append]
  refine ⟨⟨?_, ?_⟩, ?_⟩
  · exact List.forall_mem_cons.mpr ⟨rfl, List.forall_mem_singleton.mpr rfl⟩
  · intro e he
    obtain ⟨n, -, rfl⟩ := List.mem_map.mp he
    rfl
  · split
    case h_1 => exact List.forall_mem_cons.mpr ⟨rfl, List.forall_mem_singleton.mpr rfl⟩
    case h_2 =>
      exact List.forall_mem_cons.mpr ⟨rfl, List.forall_mem_cons.mpr ⟨rfl, List.forall_mem_singleton.mpr rfl⟩⟩
    case h_3 => exact List.forall_mem_singleton.mpr rfl
    case h_4 => exact List.forall_mem_cons.mpr ⟨rfl, List.forall_mem_singleton.mpr rfl⟩

namespace Scheduler

variable {judge : Judge} {q k count : Nat} {s t u : Scheduler} {made : List Nat} {m : Matched}

/-- Nothing was noted on the way that is a warning or worse. -/
def Quietly (s t : Scheduler) : Prop :=
  ∃ events, t.journal = events ++ s.journal ∧ ∀ e ∈ events, e.isQuiet = true

namespace Quietly

/-- The journal is the same. -/
theorem of_eq (h : t.journal = s.journal) : Quietly s t := ⟨[], h, fun _ he => absurd he List.not_mem_nil⟩

/-- One thing after the other. -/
protected theorem trans (h : Quietly s t) (h' : Quietly t u) : Quietly s u := by
  obtain ⟨events, heq, hquiet⟩ := h
  obtain ⟨later, heq', hquiet'⟩ := h'
  refine ⟨later ++ events, by rw [heq', heq, List.append_assoc], fun e he => ?_⟩
  exact (List.mem_append.mp he).elim (hquiet' e) (hquiet e)

/-- An event that is no warning is noted. -/
theorem log (s : Scheduler) {e : Event} (he : e.isQuiet = true) : Quietly s (s.log e) :=
  ⟨[e], rfl, fun _ hmem => List.mem_singleton.mp hmem ▸ he⟩

end Quietly

/-- Several events are noted, the last of them in front. -/
theorem journal_logAll (s : Scheduler) (es : List Event) : (s.logAll es).journal = es.reverse ++ s.journal := by
  induction es generalizing s with
  | nil => rfl
  | cons e es ih =>
      rw [logAll, List.foldl_cons, ← logAll, ih, List.reverse_cons, List.append_assoc]
      rfl

/-- Noting contacts notes no event. -/
theorem journal_records (s : Scheduler) (cs : List Contact) : (cs.foldl record s).journal = s.journal := by
  induction cs generalizing s with
  | nil => rfl
  | cons c cs ih => exact ih (s.record c)

/-- Asking blockers notes no event. -/
theorem journal_ask (judge : Judge) (s : Scheduler) (q : Nat) (item : ItemRef) (bs : List Blocker) :
    (s.ask judge q item bs).1.journal = s.journal := by
  induction bs generalizing s with
  | nil => rfl
  | cons b bs ih =>
      rw [ask]
      split
      case h_1 => exact (ih _).trans (journal_records ..)
      case h_2 => exact journal_records ..

namespace Quietly

/-- Asking the blockers of an item. -/
theorem inquire (judge : Judge) (q : Nat) (s : Scheduler) (e : Entrant) : Quietly s (inquire judge q s e) := by
  have hask := of_eq (journal_ask judge s q ⟨q, e.item.id⟩ e.item.blockers)
  unfold Scheduler.inquire
  split
  case h_1 s' r h =>
    rw [h] at hask
    exact hask.trans (log s' rfl)
  case h_2 s' v _ h =>
    rw [h] at hask
    exact hask

/-- Asking the blockers of several items. -/
theorem inquiries (judge : Judge) (q : Nat) (s : Scheduler) (es : List Entrant) :
    Quietly s (es.foldl (Scheduler.inquire judge q) s) := by
  induction es generalizing s with
  | nil => exact of_eq rfl
  | cons e es ih => exact (inquire judge q s e).trans (ih _)

/-- Assigning an item. -/
theorem assign (s : Scheduler) (q : Nat) (n : Node) (e : Entrant) : Quietly s (s.assign q n e) :=
  ⟨[_], rfl, fun _ he => List.mem_singleton.mp he ▸ rfl⟩

/-- What happens within a pass. -/
theorem inquiring (h : Inquiring judge q s made t) : Quietly s t := by
  induction h with
  | stop h =>
      obtain ⟨es, rfl, -, -⟩ := h
      exact inquiries ..
  | next h _ ih =>
      obtain ⟨es, rfl, -, -⟩ := h
      exact (inquiries ..).trans ((assign ..).trans ih)

/-- A pass. -/
theorem matchPass (hs : s.WellFormed) (judge : Judge) (q k : Nat) : Quietly s (matchPass judge q k s).state :=
  (log s rfl).trans (inquiring (matchPass_inquiring hs judge q k))

/-- Several passes. -/
theorem passes (hs : s.WellFormed) (h : Passes judge q k count s m) : Quietly s m.state := by
  induction h with
  | last => exact matchPass hs ..
  | @again k count s m _ _ _ ih =>
      exact (matchPass hs ..).trans (ih ((matchPass_assigns hs judge q k).wellFormed hs))

/-- Settling a promise. -/
theorem settle (s : Scheduler) (item : ItemRef) (p : Promise) : Quietly s (s.settle item p) := by
  apply of_eq
  unfold Scheduler.settle
  split
  case h_1 => rfl
  case h_2 => exact journal_records ..

/-- Keeping promises. -/
theorem keepPromises (q : Nat) (made : List Nat) (s : Scheduler) : Quietly s (made.foldl (keepPromise q) s) :=
  keepPromises_preserve (fun hs => hs.trans (log _ rfl)) (fun _ _ hs => hs.trans (settle ..)) made (of_eq rfl)

/-- Matching and keeping the promises. -/
theorem published (hs : s.WellFormed) (judge : Judge) (q : Nat) : Quietly s (s.published judge q) := by
  obtain ⟨count, -, hpasses⟩ := matchItems_passes hs judge q
  exact (passes hs hpasses).trans (keepPromises ..)

/-- Reading the text of a label. -/
theorem parse (s : Scheduler) (text : String) : Quietly s (s.parse text).1 := by
  refine ⟨(s.pool.registry.parseEvents text).reverse, journal_logAll .., fun e he => ?_⟩
  exact s.pool.registry.parseEvents_quiet text e (List.mem_reverse.mp he)

/-- Reading the label of a submission. -/
theorem readLabel (s : Scheduler) (p : Part) : Quietly s (s.readLabel p).1 := by
  rcases readLabel_cases s p with h | ⟨text, h⟩
  · exact of_eq (congrArg journal h)
  · exact h ▸ parse s text

/-- Freeing a node. -/
theorem releaseNode (s : Scheduler) (id : Nat) (name : String) : Quietly s (s.releaseNode id name) := by
  unfold Scheduler.releaseNode
  split
  case isTrue => exact ⟨[_], rfl, fun _ he => List.mem_singleton.mp he ▸ rfl⟩
  case isFalse => exact of_eq rfl

/-- Ending an item. -/
theorem conclude (s : Scheduler) (q : Nat) (item : ItemRef) : Quietly s (s.conclude q item) := by
  have hcompleted : Quietly s (s.withQueue q (·.complete item.id)) := of_eq rfl
  unfold Scheduler.conclude
  cases (s.get? item).bind Entrant.node with
  | none => exact hcompleted
  | some name => exact hcompleted.trans (releaseNode ..)

end Quietly

end Scheduler

end LabelScheduler
