import LabelScheduler.Proofs.Scheduler.Opening

/-!
# The moments of assignments

Matching gives items to nodes one at a time, each at a moment in which nothing holds the item back. Operations make
assignments nowhere else: not in their openings, and not as promises are kept or parties are told. So behind every
assignment of a run there is a move, a round of matching in it and a moment of that round. If all items of a task wait
for its runs to end, no two of them are therefore ever building together.
-/

namespace LabelScheduler

open Scheduler

/-- What the item is assigned to, as the next run of its task in the queue. -/
def Moment.assignment (m : Moment) (q : Nat) : Assignment :=
  ⟨m.node.name, m.node.serial, (m.state.queue q).nextRun m.entrant.item.task⟩

namespace Scheduler

variable {judge : Judge} {judges : Set Judge} {q : Nat} {s t u : Scheduler} {item : ItemRef} {e e' : Entrant}
  {a : Assignment} {moments : List Moment}

namespace Assigns

/-- The state of each moment is well-formed, and the item and the node are eligible in it. -/
theorem eligible (hs : s.WellFormed) (h : Assigns judge q s moments t) :
    ∀ m ∈ moments, m.state.WellFormed ∧ Eligible judge m.state q m.node m.entrant := by
  induction h with
  | stop => exact fun m hm => absurd hm List.not_mem_nil
  | next halike hfit _ ih =>
      have hstate := hs.alike halike
      exact List.forall_mem_cons.mpr ⟨⟨hstate, hfit⟩, ih (hstate.assign _ hfit.pending)⟩

/-- An assignment that there is in the end was there in the beginning or was made at one of the moments. -/
theorem assigned (h : Assigns judge q s moments t) (he' : t.get? item = some e') (ha : e'.assignment = some a) :
    (∃ e, s.get? item = some e ∧ e.item = e'.item ∧ e.assignment = some a) ∨
      ∃ m ∈ moments, item = ⟨q, m.entrant.item.id⟩ ∧ m.entrant.item = e'.item ∧ m.assignment q = a := by
  induction h with
  | stop halike => exact .inl ⟨e', (halike.get? item).symm.trans he', rfl, ha⟩
  | @next s t m moments halike hfit _ ih =>
      rcases ih he' with ⟨e, he, hitem, hassigned⟩ | ⟨m', hm', hgiven⟩
      · rcases hfit.get?_assign he with ⟨hthis, hsame, hnew⟩ | ⟨-, hold⟩
        · refine .inr ⟨m, List.mem_cons_self, hthis, hsame.symm.trans hitem, ?_⟩
          exact Option.some.inj (hnew.symm.trans hassigned)
        · exact .inl ⟨e, (halike.get? item).symm.trans hold, hitem, hassigned⟩
      · exact .inr ⟨m', List.mem_cons_of_mem _ hm', hgiven⟩

end Assigns

/-- On the way from one state to another there is a round of matching, with one of these judges, in which the item was
given to a node, while it was pending and nothing held it back. -/
inductive GivenIn (judges : Set Judge) (s : Scheduler) (item : ItemRef) (work : Item) (a : Assignment)
    (t : Scheduler) : Prop where
  | moment {judge : Judge} {u : Scheduler} {m : Moment} (hjudge : judge ∈ judges) (before : Rounds judges s u)
      (given : m ∈ matchMoments judge item.queue u) (known : m.state.get? item = some m.entrant)
      (same : m.entrant.item = work) (pending : m.entrant.state = .pending)
      (assignment : m.assignment item.queue = a) (unblocked : Unblocked judge m.state item.queue m.entrant)
      (after : Rounds judges (u.published judge item.queue) t)

/-- Another round may follow. -/
theorem GivenIn.tail {work : Item} (h : GivenIn judges s item work a t) (hround : Round judges t u) :
    GivenIn judges s item work a u := by
  cases h with
  | moment hjudge before given known same pending assignment unblocked after =>
      exact .moment hjudge before given known same pending assignment unblocked (after.tail hround)

/-- Other rounds may come first. -/
theorem GivenIn.head {work : Item} (hrounds : Rounds judges s t) (h : GivenIn judges t item work a u) :
    GivenIn judges s item work a u := by
  cases h with
  | moment hjudge before given known same pending assignment unblocked after =>
      exact .moment hjudge (hrounds.trans before) given known same pending assignment unblocked after

/-- As promises are kept, nothing is assigned. -/
theorem Passive.keepPromises (q : Nat) (made : List Nat) (s : Scheduler) :
    Passive s (made.foldl (keepPromise q) s) := by
  have hnote {t : Scheduler} (event : Event) (ht : Passive s t) : Passive s (t.log event) :=
    ht.trans (.alike (.log t event))
  refine keepPromises_preserve (P := Passive s) (fun ht => hnote _ ht) (fun he _ ht => ht.trans (.settle he _)) made ?_
  exact .alike (.refl s)

/-- An assignment that there is when a round of matching is over was there before, or it was made in the round. -/
theorem published_assigned (hs : s.WellFormed) (hjudge : judge ∈ judges)
    (he' : (s.published judge q).get? item = some e') (ha : e'.assignment = some a) :
    (∃ e, s.get? item = some e ∧ e.item = e'.item ∧ e.assignment = some a) ∨
      GivenIn judges s item e'.item a (s.published judge q) := by
  obtain ⟨e, he, hstays⟩ := Passive.keepPromises q _ _ item e' he'
  have hassigns := matchItems_assigns hs judge q
  rw [hstays.item]
  rcases hassigns.assigned he (hstays.assignment ▸ ha) with hold | ⟨m, hm, rfl, hwork, hassigned⟩
  · exact .inl hold
  · obtain ⟨hstate, hfit⟩ := hassigns.eligible hs m hm
    have hpending : m.entrant.state = .pending := ((hstate.queues q).pending_iff hfit.known).mp hfit.pending
    exact .inr (.moment hjudge .refl hm hfit.known hwork hpending hassigned hfit.unblocked .refl)

/-- An assignment that there is after rounds was there before, or it was made in one of them. -/
theorem Rounds.assigned (hs : s.WellFormed) (h : Rounds judges s t) (he' : t.get? item = some e')
    (ha : e'.assignment = some a) :
    (∃ e, s.get? item = some e ∧ e.item = e'.item ∧ e.assignment = some a) ∨ GivenIn judges s item e'.item a t := by
  induction h generalizing e' with
  | refl => exact .inl ⟨e', he', rfl, ha⟩
  | @tail t u hbefore hround ih =>
      have ht := hs.effects (Rounds.effects hs hbefore)
      cases hround with
      | note halike =>
          have he := (halike.get? item).symm.trans he'
          exact (ih he ha).imp id fun hgiven => hgiven.tail (.note halike)
      | @matched judge hjudge q =>
          rcases published_assigned ht hjudge he' ha with ⟨e, he, hitem, hassigned⟩ | hgiven
          · rw [← hitem]
            exact (ih he hassigned).imp id fun hgiven => hgiven.tail (.matched hjudge q)
          · exact .inr (hgiven.head hbefore)

/-- In a move that begins in one state and ends in another the item was given to a node, after the operation that it
asks for had opened, if it asks for one. -/
def AssignedIn (judges : Set Judge) (s : Scheduler) (move : Move) (item : ItemRef) (work : Item) (a : Assignment)
    (t : Scheduler) : Prop :=
  ∃ u, move.Opening s u ∧ GivenIn judges u item work a t

end Scheduler

/-- Behind every assignment of a run there is a move in which it was made, after the operation had opened that the move
asks for. It was made in a round of matching, by the judge of some operation that had been asked for by then, and in the
state of that moment none of the item's blockers had a reason to hold the item back. Hence if all items of a task in a
queue wait for runs of that task to end, no two of them are ever building there together. -/
theorem Config.run_unblocked (moves : List Move) :
    (∀ item e a, (run moves).state.get? item = some e → e.assignment = some a →
      ∃ before m after, moves = before ++ m :: after ∧
        Scheduler.AssignedIn (heard (before ++ [m])) (run before).state m item e.item a
          (run (before ++ [m])).state) ∧
    ∀ q task, (run moves).state.SelfBlocked q task →
      ∀ e ∈ ((run moves).state.queue q).buildingEntrants, ∀ e' ∈ ((run moves).state.queue q).buildingEntrants,
        e.item.task.text = task → e'.item.task.text = task → e = e' := by
  constructor
  · intro item e a he ha
    induction moves using List.reverseRecOn generalizing e with
    | nil => exact absurd (Scheduler.lt_of_get? he) (Nat.not_lt_zero _)
    | append_singleton moves m ih =>
        obtain ⟨t, hopening, hrounds⟩ := run_concat_opens moves m
        have hs := run_wellFormed moves
        rcases hrounds.assigned (hs.effects hopening.effects) he ha with ⟨e₁, he₁, hitem₁, ha₁⟩ | hgiven
        · obtain ⟨e₀, he₀, hitem₀, ha₀⟩ := hopening.effects.assigned_before hs he₁ ha₁
          obtain ⟨before, m', after, rfl, hassigned⟩ := ih e₀ he₀ ha₀
          exact ⟨before, m', after ++ [m], by simp, hitem₁ ▸ hitem₀ ▸ hassigned⟩
        · exact ⟨moves, m, [], rfl, t, hopening, hgiven⟩
  · intro q task hblocked e he e' he' htask htask'
    have hqueue := (run_wellFormed moves).queues q
    have hsole := Scheduler.SoleRun.effects (run_effects moves) hblocked
    obtain ⟨hget, hmem⟩ := hqueue.mem_buildingEntrants.mp he
    obtain ⟨hget', hmem'⟩ := hqueue.mem_buildingEntrants.mp he'
    have hid : e.item.id = e'.item.id := hsole _ _ e e' hget hget' htask htask'
      ((hqueue.building_iff hget).mp hmem) ((hqueue.building_iff hget').mp hmem')
    rw [hid, hget'] at hget
    exact (Option.some.inj hget).symm

/-- Of two items that wait for their own task, only the first is assigned, although two nodes are idle; when
it was assigned, nothing held it back. -/
theorem Config.run_unblocked_self_blocked :
    let moves : List Move :=
      [.ask .lenient (.openQueue []), .ask .lenient (.register "a" (.parts [])),
        .ask .lenient (.register "b" (.parts [])),
        .ask .lenient (.submit 0 (.plain .none) "t" [.task "t" false]),
        .ask .lenient (.submit 0 (.plain .none) "t" [.task "t" false])]
    ((run moves).state.queue 0).building = [1] ∧ ((run moves).state.queue 0).pending = [2] ∧
      (∃ e a, (run moves).state.get? ⟨0, 1⟩ = some e ∧ e.assignment = some a ∧
        ∃ before m after, moves = before ++ m :: after ∧
          Scheduler.AssignedIn (heard (before ++ [m])) (run before).state m ⟨0, 1⟩ e.item a
            (run (before ++ [m])).state) ∧
      (run moves).state.SelfBlocked 0 "t" ∧
      ∀ e ∈ ((run moves).state.queue 0).buildingEntrants, ∀ e' ∈ ((run moves).state.queue 0).buildingEntrants,
        e.item.task.text = "t" → e'.item.task.text = "t" → e = e' := by
  intro moves
  obtain ⟨a, ha⟩ : ∃ a, ((run moves).state.get? ⟨0, 1⟩).bind Entrant.assignment = some a :=
    Option.isSome_iff_exists.mp (by decide)
  obtain ⟨e, he, ha⟩ := Option.bind_eq_some_iff.mp ha
  have hblocked : (run moves).state.SelfBlocked 0 "t" := by
    have hall : ∀ e ∈ ((run moves).state.queue 0).entrants, .task "t" false ∈ e.item.blockers := by decide
    exact fun e he _ => ⟨false, hall e he⟩
  exact ⟨by decide, by decide, ⟨e, a, he, ha, (run_unblocked moves).1 _ e a he ha⟩, hblocked,
    (run_unblocked moves).2 0 "t" hblocked⟩

end LabelScheduler
