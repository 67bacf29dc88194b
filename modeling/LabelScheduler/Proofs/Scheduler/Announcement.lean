import LabelScheduler.Proofs.Scheduler.Course
import LabelScheduler.Proofs.Scheduler.Placement

/-!
# Assignments are made public

When the promises of the items that matching assigned are kept, listeners are told: each of them hears of every
one of these assignments once, in order, whatever the others do and whether they fail. An assignment whose promise
is kept is never taken back, so it is the same assignment that the last listener hears of, after all the others had
their say.
-/

namespace LabelScheduler

/-- The item was assigned like this, and its promise is kept. -/
structure Entrant.Committed (e : Entrant) (a : Assignment) : Prop where
  assignment : e.assignment = some a
  promise : e.promise = .kept a
  standing : e.state ≠ .pending ∧ e.state ≠ .cancelled

namespace Queue

variable {q r : Queue} {id : Nat}

/-- A commitment stays if no change to an item takes it back. -/
theorem committed_update {f : Entrant → Entrant} {a : Assignment} {e : Entrant} {j : Nat}
    (hentrants : r.entrants = q.entrants) (hid : 0 < id)
    (hf : j = id → (f e).Committed a) (he : q.get? j = some e) (h : e.Committed a) :
    ∃ e', (r.update id f).get? j = some e' ∧ e'.Committed a := by
  rw [get?_update_of hentrants hid]
  by_cases hj : j = id
  · exact ⟨f e, by rw [if_pos hj, he, Option.map_some], hf hj⟩
  · exact ⟨e, by rw [if_neg hj, he], h⟩

end Queue

namespace Scheduler

variable {judge : Judge} {judges : Set Judge} {q : Nat} {s t u : Scheduler} {item : ItemRef} {a : Assignment}
  {xs : List Exchange}

/-- The item was assigned like this, and its promise is kept. -/
def Committed (s : Scheduler) (item : ItemRef) (a : Assignment) : Prop :=
  ∃ e, s.get? item = some e ∧ e.Committed a

namespace Committed

/-- Journals and contacts do not matter. -/
protected theorem alike (hst : Alike s t) (h : s.Committed item a) : t.Committed item a := by
  obtain ⟨e, he, hcommitted⟩ := h
  exact ⟨e, (hst.get? item).trans he, hcommitted⟩

/-- The pool does not matter. -/
theorem withPool (h : s.Committed item a) (f : Pool → Pool) : (s.withPool f).Committed item a := h

/-- A queue may change if it takes no commitment back. -/
theorem withQueue {f : Queue → Queue} (h : s.Committed item a)
    (hf : item.queue = q → ∀ e, s.get? item = some e → e.Committed a →
      ∃ e', (f (s.queue q)).get? item.id = some e' ∧ e'.Committed a) :
    (s.withQueue q f).Committed item a := by
  obtain ⟨e, he, hcommitted⟩ := h
  by_cases hq : item.queue = q
  · obtain ⟨e', he', hcommitted'⟩ := hf hq e he hcommitted
    refine ⟨e', ?_, hcommitted'⟩
    rw [get?, queue_withQueue, if_pos ⟨hq, hq ▸ lt_of_get? he⟩, hq]
    exact he'
  · refine ⟨e, ?_, hcommitted⟩
    rw [get?, queue_withQueue, if_neg fun h => hq h.1]
    exact he

/-- An item may change if that takes no commitment back, and so may the lists of its queue. -/
theorem update {f : Queue → Queue} {id : Nat} {g : Entrant → Entrant} (h : s.Committed item a) {r : Queue}
    (hf : f (s.queue q) = r.update id g) (hentrants : r.entrants = (s.queue q).entrants) (hid : 0 < id)
    (hg : ∀ e, s.get? ⟨q, id⟩ = some e → e.Committed a → (g e).Committed a) :
    (s.withQueue q f).Committed item a := by
  refine h.withQueue fun hq e he hcommitted => ?_
  subst hq
  rw [hf]
  exact Queue.committed_update hentrants hid (fun hid => hg e (hid ▸ he) hcommitted) he hcommitted

/-- Settling a promise as it was kept takes nothing back. -/
theorem settle {item' : ItemRef} {e' : Entrant} {p : Promise} (h : s.Committed item a)
    (he' : s.get? item' = some e') (hp : e'.Committed a → p = .kept a) : (s.settle item' p).Committed item a := by
  obtain ⟨e, he, hcommitted⟩ := h
  by_cases hitem : item = item'
  · obtain rfl := Option.some.inj (he.symm.trans (hitem ▸ he'))
    refine ⟨{ e with promise := p }, by rw [get?_settle he', if_pos hitem], ?_⟩
    exact ⟨hcommitted.assignment, hp hcommitted, hcommitted.standing⟩
  · exact ⟨e, by rw [get?_settle he', if_neg hitem, he], hcommitted⟩

/-- No effect takes a commitment back: a committed item is not pending, so it is neither assigned again nor
withdrawn, and its promise can be kept only as it was. -/
theorem effect (hs : s.WellFormed) (h : s.Committed item a) (hst : Effect judges s t) : t.Committed item a := by
  cases hst with
  | note halike => exact h.alike halike
  | read r => exact h.withPool _
  | join labels hname => exact h.withPool _
  | leave name => exact h.withPool _
  | turn state hfind hfree => exact h.withPool _
  | enter hid =>
      refine h.withQueue fun hq e he hcommitted => ⟨e, ?_, hcommitted⟩
      have hknown : (s.queue item.queue).get? item.id = some e := he
      rw [hq] at hknown
      rw [Queue.get?_add, if_neg, hknown]
      intro hnext
      rw [hnext, Queue.get?_nextId] at hknown
      cases hknown
  | assign hjudge hfit =>
      refine .alike (.log _ _) (.withPool ?_ _)
      refine h.update rfl rfl (Queue.pos_of_get? hfit.known) fun e he hcommitted => ?_
      exact absurd (((hs.queues _).pending_iff he).mp hfit.pending) hcommitted.standing.1
  | keep he ha =>
      refine h.settle he fun hcommitted => congrArg Promise.kept ?_
      exact Option.some.inj (ha.symm.trans hcommitted.assignment)
  | @withdraw q item' hpending =>
      have hmem := (mem_of_isPendingIn hpending).2
      obtain ⟨e', he'⟩ := (hs.queues q).known (.inl hmem)
      refine h.update rfl rfl (Queue.pos_of_get? he') fun e he hcommitted => ?_
      exact absurd (((hs.queues q).pending_iff he).mp hmem) hcommitted.standing.1
  | renounce he hstate => exact h.settle he fun hcommitted => absurd hstate hcommitted.standing.2
  | @start q item' hbuilding =>
      obtain ⟨e', he'⟩ := (hs.queues q).known (.inr (mem_of_isBuildingIn hbuilding).2)
      refine h.update rfl rfl (Queue.pos_of_get? he') fun e _ hcommitted => ?_
      exact ⟨hcommitted.assignment, hcommitted.promise, by simp⟩
  | @complete q item' hbuilding =>
      obtain ⟨e', he'⟩ := (hs.queues q).known (.inr (mem_of_isBuildingIn hbuilding).2)
      refine .alike (conclude_alike s q item') (.withPool ?_ _)
      refine h.update rfl rfl (Queue.pos_of_get? he') fun e _ hcommitted => ?_
      exact ⟨hcommitted.assignment, hcommitted.promise, by simp⟩
  | openQueue listeners =>
      obtain ⟨e, he, hcommitted⟩ := h
      refine ⟨e, ?_, hcommitted⟩
      rw [get?, queue_openQueue, if_neg (Nat.ne_of_lt (lt_of_get? he))]
      exact he
  | listen q p => exact h.withQueue fun hq e he hcommitted => ⟨e, hq ▸ he, hcommitted⟩
  | subscribe p => exact h.withPool _
  | watch p item' =>
      rcases watch_cases s p item' with halike | ⟨e', he', hwatch⟩
      · exact h.alike halike
      · rw [hwatch]
        refine h.update rfl rfl (Queue.pos_of_get? he') fun e _ hcommitted => ?_
        exact ⟨hcommitted.assignment, hcommitted.promise, hcommitted.standing⟩

/-- A commitment is never taken back. -/
theorem effects (hs : s.WellFormed) (h : s.Committed item a) (hst : Effects judges s t) : t.Committed item a := by
  have hboth : t.WellFormed ∧ t.Committed item a :=
    hst.preserve (P := fun u => u.WellFormed ∧ u.Committed item a)
      (fun hu hstep => ⟨hu.1.effect hstep, hu.2.effect hu.1 hstep⟩) ⟨hs, h⟩
  exact hboth.2

end Committed

/-- The listener hears of the assignment of the item: it is told so after this state, the promise of this very
assignment is kept by then, and that the listener is told is noted last. -/
structure Heard (u : Scheduler) (p : Party) (item : ItemRef) (a : Assignment) (x : Exchange) : Prop where
  news : x.news = .assigned p item
  since : u.Reaches x.told
  committed : x.told.Committed item a
  noted : ∃ state, x.told.contacts.head? = some (.assigned p item a state true)

/-- A committed item has an assignment for the listener to be told of. -/
theorem Committed.recorded (h : s.Committed item a) (p : Party) :
    (s.recordAssigned p item).Committed item a ∧
      ∃ state, (s.recordAssigned p item).contacts.head? = some (.assigned p item a state true) := by
  refine ⟨h.alike (recordAssigned_alike s p item), ?_⟩
  obtain ⟨e, he, hcommitted⟩ := h
  have hsettled : e.isSettled = true := by rw [Entrant.isSettled, hcommitted.promise]; rfl
  exact ⟨e.state, by simp [recordAssigned, he, hcommitted.assignment, hsettled, record]⟩

/-- The listener is told that the item of the queue was assigned, in a state to which effects lead. -/
structure Tells (q : Nat) (s : Scheduler) (pair : Nat × Party) (x : Exchange) : Prop where
  news : x.news = .assigned pair.2 ⟨q, pair.1⟩
  told : ∃ y, s.Reaches y ∧ x.told = y.recordAssigned pair.2 ⟨q, pair.1⟩

/-- Effects may come before the listeners are told. -/
theorem Tells.head {pairs : List (Nat × Party)} (hst : s.Reaches t) (h : List.Forall₂ (Tells q t) pairs xs) :
    List.Forall₂ (Tells q s) pairs xs :=
  h.imp fun _ _ ⟨hnews, y, hy, htold⟩ => ⟨hnews, y, hst.trans hy, htold⟩

/-- How the announcement of assignments goes on: every listener is told of its assignment in turn, the first of
them that fails gives the fault of the whole, and nothing changes but what the listeners change. -/
structure Telling (q : Nat) (pairs : List (Nat × Party)) (first : Option Fault) (s : Scheduler)
    (xs : List Exchange) (t : Scheduler) (result : Except Fault Unit) : Prop where
  result : result = (first.or (firstFault xs)).elim (.ok ()) .error
  tells : List.Forall₂ (Tells q s) pairs xs
  reaches : s.Reaches t
  quiet : (∀ x ∈ xs, Alike x.told x.back) → Alike s t

/-- Announcements go on like this, whatever the listeners do. -/
theorem tellListeners_course {pairs : List (Nat × Party)} {first : Option Fault} {result : Except Fault Unit}
    (h : (tellListeners q pairs first s).Course xs t result) : Telling q pairs first s xs t result := by
  induction pairs generalizing first s xs with
  | nil =>
      cases first with
      | none => cases h; exact ⟨rfl, .nil, .refl, fun _ => .refl _⟩
      | some f => cases h; exact ⟨rfl, .nil, .refl, fun _ => .refl _⟩
  | cons pair pairs ih =>
      cases h with
      | @tell _ u _ _ _ f xs _ hparty hrest =>
          have hnoted := recordAssigned_alike s pair.2 ⟨q, pair.1⟩
          have hback : s.Reaches u := .head (.note hnoted) hparty
          have htold : Tells q s pair ⟨_, _, u, f⟩ := ⟨rfl, s, .refl, rfl⟩
          cases f with
          | none =>
              have hothers := ih hrest
              refine ⟨hothers.result, .cons htold (Tells.head hback hothers.tells), hback.trans hothers.reaches, ?_⟩
              intro hquiet
              obtain ⟨hfirst, hlater⟩ := List.forall_mem_cons.mp hquiet
              exact (hnoted.trans hfirst).trans (hothers.quiet hlater)
          | some f =>
              have hothers := ih hrest
              have hfailure := logFailure_alike u ⟨q, pair.1⟩ f
              have hafter := hback.tail (.note hfailure)
              refine ⟨?_, .cons htold (Tells.head hafter hothers.tells), hafter.trans hothers.reaches, ?_⟩
              · rw [hothers.result, firstFault, firstFault, List.findSome?_cons]
                cases first <;> rfl
              · intro hquiet
                obtain ⟨hfirst, hlater⟩ := List.forall_mem_cons.mp hquiet
                exact ((hnoted.trans hfirst).trans hfailure).trans (hothers.quiet hlater)

/-- How matching goes on from when its promises are kept: every listener of the queue is told of every assignment,
the first of them that fails gives the fault, a fault of a blocker is reported if no listener failed, and nothing
changes but what the listeners change. -/
structure Maintained (judge : Judge) (q : Nat) (s : Scheduler) (xs : List Exchange) (t : Scheduler)
    (result : Except Fault (List Nat)) : Prop where
  result : result =
    ((firstFault xs).or (matchItems judge q s).fault).elim (.ok (matchItems judge q s).made) .error
  tells : List.Forall₂ (Tells q (s.published judge q))
    ((matchItems judge q s).made.flatMap fun id => ((s.published judge q).queue q).listeners.map (id, ·)) xs
  reaches : (s.published judge q).Reaches t
  quiet : (∀ x ∈ xs, Alike x.told x.back) → Alike (s.published judge q) t

/-- Matching succeeds only if no listener and no blocker failed. -/
theorem Maintained.no_fault {judge : Judge} {made : List Nat} (h : Maintained judge q s xs t (.ok made)) :
    firstFault xs = none ∧ (matchItems judge q s).fault = none := by
  have hresult := h.result
  cases hlisteners : firstFault xs with
  | some f => rw [hlisteners] at hresult; cases hresult
  | none =>
      cases hblockers : (matchItems judge q s).fault with
      | some f => rw [hlisteners, hblockers] at hresult; cases hresult
      | none => exact ⟨rfl, rfl⟩

/-- Effects lead to where it ends. -/
theorem Maintained.effects {judge : Judge} {result : Except Fault (List Nat)} (hs : s.WellFormed)
    (h : Maintained judge q s xs t result) : s.Reaches t :=
  (published_effects hs (Set.mem_univ judge) q).trans h.reaches

/-- Matching goes on like this in every way that it may go on. -/
theorem maintain_course {judge : Judge} {result : Except Fault (List Nat)}
    (h : (s.maintain judge q).Course xs t result) : Maintained judge q s xs t result := by
  rcases Dialogue.Course.of_andThen h with ⟨f, hannounce, rfl⟩ | ⟨before, after, u, a, rfl, hannounce, hlast⟩
  · have htelling := tellListeners_course hannounce
    refine ⟨?_, htelling.tells, htelling.reaches, htelling.quiet⟩
    have hresult := htelling.result
    cases hfirst : firstFault xs with
    | none => rw [hfirst] at hresult; cases hresult
    | some f' => rw [hfirst] at hresult; cases hresult; rfl
  · have htelling := tellListeners_course hannounce
    have hfirst : firstFault before = none := by
      have hresult := htelling.result
      cases hfirst : firstFault before with
      | none => rfl
      | some f => rw [hfirst] at hresult; cases hresult
    cases hfault : (matchItems judge q s).fault with
    | none =>
        rw [hfault] at hlast
        cases hlast
        rw [List.append_nil]
        exact ⟨by rw [hfirst, hfault]; rfl, htelling.tells, htelling.reaches, htelling.quiet⟩
    | some f =>
        rw [hfault] at hlast
        cases hlast
        rw [List.append_nil]
        exact ⟨by rw [hfirst, hfault]; rfl, htelling.tells, htelling.reaches, htelling.quiet⟩

/-- What is assigned and promised is committed. -/
theorem Promised.committed {made : List Nat} (h : Placed q made s t) (h' : Promised q made t u) :
    ∀ id ∈ made, ∃ e a, t.get? ⟨q, id⟩ = some e ∧ e.assignment = some a ∧ u.Committed ⟨q, id⟩ a := by
  intro id hid
  obtain ⟨e, a, -, -, ht⟩ := h.assigned id hid
  exact ⟨_, a, ht, rfl, _, h'.kept id hid _ a ht rfl, rfl, rfl, by simp⟩

end Scheduler

/-- One matching round at any moment of a run, also while other operations wait, and whatever blockers and
listeners do: items that were pending are assigned to nodes that were idle, everything else is as it was, and the
promises of these assignments are kept. Only then are listeners told: in every way in which the round may go on,
every listener of the queue hears of every one of these assignments, in the order in which they were made, once
for each time that it was added, and it finds the promise of this assignment kept. The round goes on in one of these
ways if it is asked for now and returns in the course of the run. -/
theorem Config.run_announced (moves : List Move) (judge : Judge) (q : Nat) :
    let s := (run moves).state
    let m := Scheduler.matchItems judge q s
    let u := s.published judge q
    Scheduler.Placed q m.made s m.state ∧ Scheduler.Promised q m.made m.state u ∧
      (∀ xs t result, (s.maintain judge q).Course xs t result →
        List.Forall₂ (fun pair x => ∃ e a, m.state.get? ⟨q, pair.1⟩ = some e ∧ e.assignment = some a ∧
          u.Heard pair.2 ⟨q, pair.1⟩ a x)
          (m.made.flatMap fun id => (u.queue q).listeners.map (id, ·)) xs) ∧
      ∀ during t result, q < s.queues.length →
        Returns (run moves).waiting ((run moves).take (.ask judge (.maintain q))) during t result →
        ∃ xs first, (s.maintain judge q).Course xs t first ∧ result = first.map Answer.items := by
  intro s m u
  have hs : s.WellFormed := run_wellFormed moves
  have hplaced : Scheduler.Placed q m.made s m.state := Scheduler.matchItems_placed hs judge q
  have hpromised : Scheduler.Promised q m.made m.state u := Scheduler.published_promised judge q s
  have hu : u.WellFormed := hs.effects (Scheduler.published_effects hs (Set.mem_univ judge) q)
  refine ⟨hplaced, hpromised, fun xs t result hcourse => ?_, fun during t result hq hreturn => ?_⟩
  · have hcommitted : ∀ pair ∈ m.made.flatMap fun id => (u.queue q).listeners.map (id, ·), ∃ e a,
        m.state.get? ⟨q, pair.1⟩ = some e ∧ e.assignment = some a ∧ u.Committed ⟨q, pair.1⟩ a := by
      intro pair hpair
      obtain ⟨id, hid, hlistener⟩ := List.mem_flatMap.mp hpair
      obtain ⟨p, -, rfl⟩ := List.mem_map.mp hlistener
      exact hpromised.committed hplaced id hid
    refine ((List.forall₂_and_left _ _).mpr ⟨hcommitted, (Scheduler.maintain_course hcourse).tells⟩).imp ?_
    rintro ⟨id, p⟩ x ⟨⟨e, a, he, ha, hkept⟩, hnews, y, hy, htold⟩
    obtain ⟨hstill, hnoted⟩ := (hkept.effects hu hy).recorded p
    have hsince := hy.tail (.note (Scheduler.recordAssigned_alike y p ⟨q, id⟩))
    rw [← htold] at hstill hnoted hsince
    exact ⟨e, a, he, ha, hnews, hsince, hstill, hnoted⟩
  · have hopen : (Request.maintain q).isOpenIn s = true := by simpa [Request.isOpenIn, Request.queue?] using hq
    obtain ⟨xs, hcourse⟩ := run_course hopen hreturn
    exact ⟨xs, hcourse.of_map⟩

/-- Two items wait for the word of a party each, while two nodes are idle and two listeners hear of
assignments. -/
def Config.twoHeldBack : List Move :=
  [.ask .lenient (.openQueue [0, 1]),
    .ask .lenient (.submit 0 (.plain .none) "t" [.party 2]),
    .ask .lenient (.submit 0 (.plain .none) "u" [.party 3]),
    .ask (fun _ _ _ => .held "not yet") (.register "a" (.parts [])),
    .ask (fun _ _ _ => .held "not yet") (.register "b" (.parts []))]

/-- One party fails when it is asked, and the others let items go. -/
def Judge.failing (p : Party) (f : Fault) : Judge := fun p' _ _ => if p' = p then .failed f else .free

/-- The second item's party fails after the first item was assigned, and both listeners fail that are told. When
they have failed, the round returns. -/
theorem Config.run_announced_all_fail :
    let listener : Fault := .outside "RuntimeError" "listener"
    let s := (run twoHeldBack).state
    let judge := Judge.failing 3 (.outside "ValueError" "policy")
    let m := Scheduler.matchItems judge 0 s
    let c := (run twoHeldBack).take (.ask judge (.maintain 0))
    m.made = [1] ∧ m.fault = some (.outside "ValueError" "policy") ∧
      (∃ xs t result, (s.maintain judge 0).Course xs t result ∧ (∀ x ∈ xs, x.fault = some listener) ∧
        List.Forall₂ (fun pair x => ∃ e a, m.state.get? ⟨0, pair.1⟩ = some e ∧ e.assignment = some a ∧
          (s.published judge 0).Heard pair.2 ⟨0, pair.1⟩ a x) [(1, 0), (1, 1)] xs) ∧
      ∃ t result, Returns [] c [.answer (some listener), .answer (some listener)] t result ∧
        ∃ xs first, (s.maintain judge 0).Course xs t first ∧ result = first.map Answer.items := by
  intro listener s judge m c
  obtain ⟨-, -, hheard, hreturns⟩ := run_announced twoHeldBack judge 0
  have hmade : m.made = [1] := by decide
  refine ⟨hmade, by decide, ?_, ?_⟩
  · obtain ⟨xs, hcourse, hback⟩ := Dialogue.Course.exists_of_play
      (fun (_ : Unit) s _ => ((), s, some listener)) (fun _ _ _ => .refl) (s.maintain judge 0) ()
    have hlisteners : ((s.published judge 0).queue 0).listeners = [0, 1] := by decide
    refine ⟨xs, _, _, hcourse, fun x hx => ?_, ?_⟩
    · obtain ⟨-, hfault⟩ := hback x hx
      exact (congrArg Prod.snd hfault).symm
    · have htold := hheard xs _ _ hcourse
      change List.Forall₂ _
        (m.made.flatMap fun id => ((s.published judge 0).queue 0).listeners.map (id, ·)) xs at htold
      rw [hmade, hlisteners] at htold
      exact htold
  · obtain ⟨result, hresult⟩ : ∃ result,
        ((c.take (.answer (some listener))).take (.answer (some listener))).returned = some result :=
      Option.isSome_iff_exists.mp (by decide)
    have hend := Returns.of_length (by decide) hresult
    have hreturn := Returns.later_of_pos (c := c) (by decide) (.later_of_pos (by decide) hend)
    exact ⟨_, result, hreturn, hreturns _ _ _ (by decide) hreturn⟩

end LabelScheduler
