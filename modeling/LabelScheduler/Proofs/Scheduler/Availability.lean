import LabelScheduler.Proofs.Scheduler.FirstFit
import LabelScheduler.Proofs.Scheduler.Turn

/-!
# Who hears of a node that can take an item

A node that is registered, or released from outside, is announced: before the operation returns, all who have
subscribed have their turns one after the other, the parties to be told of the node and every queue of the pool for a
round of matching. If no party changes anything meanwhile, what the node and an item of any queue could do together
after all turns they could have done before each of them, and a round leaves nothing of this kind in its own queue. So
no queue keeps an item that an idle node could take.

A node that is freed because an item completes is announced to nobody. Only the queue of the item matches then, and
what waits in other queues is not looked at, although the node may satisfy its labels.
-/

namespace LabelScheduler

/-- The blocker is built in, or it is a party that answers the same about the item in every state. -/
def Blocker.IsFixed (judge : Judge) (item : ItemRef) : Blocker → Prop
  | .party p => ∀ s t, judge p s item = judge p t item
  | _ => True

/-- All blockers of the item, in a queue of this number, are fixed. -/
def Item.IsFixed (judge : Judge) (q : Nat) (i : Item) : Prop := ∀ b ∈ i.blockers, b.IsFixed judge ⟨q, i.id⟩

namespace Blocker.IsFixed

open Scheduler

variable {judge : Judge} {item : ItemRef} {b : Blocker} {s t : Scheduler}

/-- A fixed blocker answers what it sees. -/
theorem verdict_congr (hb : b.IsFixed judge item) (h : ∀ q, (s.queue q).SameSight (t.queue q)) (view : Nat) :
    b.verdict judge t view item = b.verdict judge s view item := by
  cases b with
  | party p => exact hb t s
  | item | task | run => exact Blocker.verdict_congr rfl h judge judge view item

/-- A fixed blocker that did not let an item go does not let it go after assignments. -/
theorem verdict_ne_free (hb : b.IsFixed judge item) (hs : s.WellFormed) (ht : t.WellFormed) {q : Nat} {made : List Nat}
    (h : Placed q made s t) {view : Nat} (hheld : b.verdict judge s view item ≠ .free) :
    b.verdict judge t view item ≠ .free := by
  cases b with
  | party p => exact fun hfree => hheld ((hb s t).trans hfree)
  | item | task | run => exact h.verdict_ne_free hs ht rfl hheld

/-- What a fixed blocker says in a state like this one, it answers here. -/
theorem verdict_eq (hb : b.IsFixed judge item) {q : Nat} {v : Verdict} (h : Says judge s q item b v) :
    b.verdict judge s q item = v := by
  obtain ⟨t, hst, hv⟩ := h
  exact (hb.verdict_congr (Narrows.alike hst.symm).sight q).trans hv

end Blocker.IsFixed

namespace Scheduler

variable {judge : Judge} {q j serial : Nat} {s t u : Scheduler} {xs : List Exchange} {made : List Nat} {n : Node}
  {e : Entrant} {subs : List Subscriber} {rounds : List (Nat × Scheduler)} {fault : Option Fault}

/-! ### What cannot go stays where it is -/

/-- A node that refuses an item with fixed blockers does not go with it. -/
theorem Refused.not_eligible (h : Refused judge s q n e) (hfixed : e.item.IsFixed judge q) :
    ¬ Eligible judge s q n e := by
  intro hfit
  rcases h with ⟨r, before, b, after, hblockers, -, hheld⟩ | ⟨-, hmeets⟩
  · have hb : b ∈ e.item.blockers := hblockers ▸ List.mem_append_right _ List.mem_cons_self
    have hfree := (hfixed b hb).verdict_eq (hfit.free b hb)
    rw [(hfixed b hb).verdict_eq hheld] at hfree
    cases hfree
  · rw [hfit.meets] at hmeets
    cases hmeets

/-- A node and an item with fixed blockers went together before if the node was idle, the item was pending, and no
blocker held it back that lets it go now. -/
theorem Eligible.earlier (hs : s.WellFormed) (hfit : Eligible judge t j n e) (hfixed : e.item.IsFixed judge j)
    (hn : n ∈ s.pool.nodes) {e₀ : Entrant} (he₀ : e₀ ∈ (s.queue j).pendingEntrants) (hitem : e₀.item = e.item)
    (hfree : ∀ b ∈ e.item.blockers, b.verdict judge t j ⟨j, e.item.id⟩ = .free →
      b.verdict judge s j ⟨j, e.item.id⟩ = .free) : Eligible judge s j n e₀ := by
  obtain ⟨hget, hpending⟩ := (hs.queues j).mem_pendingEntrants.mp he₀
  exact
    { registered := hn
      idle := hfit.idle
      known := hget
      pending := hpending
      free := by
        rw [hitem]
        exact fun b hb => ⟨s, .refl s, hfree b hb ((hfixed b hb).verdict_eq (hfit.free b hb))⟩
      meets := hitem ▸ hfit.meets }

/-- An eligible item is among the pending ones. -/
theorem Eligible.mem_pendingEntrants (hs : s.WellFormed) (hfit : Eligible judge s q n e) :
    e ∈ (s.queue q).pendingEntrants :=
  (hs.queues q).mem_pendingEntrants.mpr ⟨hfit.known, hfit.pending⟩

/-- A node and an item with fixed blockers that go together after assignments went together before. -/
theorem Placed.eligible (hs : s.WellFormed) (ht : t.WellFormed) (h : Placed q made s t)
    (hfixed : e.item.IsFixed judge j) (hfit : Eligible judge t j n e) : Eligible judge s j n e := by
  have hn := h.mem_of_idle hfit.registered hfit.idle
  refine hfit.earlier hs hfixed hn (h.pending_subset hs ht (hfit.mem_pendingEntrants ht)) rfl fun b hb hfree => ?_
  by_contra hheld
  exact (hfixed b hb).verdict_ne_free hs ht h hheld hfree

/-- A node and an item with fixed blockers that go together went together before if no node became idle and blockers
saw the same. -/
theorem Narrows.eligible (hs : s.WellFormed) (ht : t.WellFormed) (h : Narrows s t) (hfixed : e.item.IsFixed judge j)
    (hfit : Eligible judge t j n e) : ∃ e₀, e₀.item = e.item ∧ Eligible judge s j n e₀ := by
  obtain ⟨e₀, he₀, hitem⟩ := (h.sight j).pendingEntrant (hfit.mem_pendingEntrants ht)
  have hn := h.idle n hfit.registered hfit.idle
  refine ⟨e₀, hitem, hfit.earlier hs hfixed hn he₀ hitem fun b hb hfree => ?_⟩
  rwa [(hfixed b hb).verdict_congr h.sight] at hfree

namespace Maintained

variable {result : Except Fault (List Nat)}

/-- What goes together after a round of matching whose listeners change nothing went together when all assignments of
the round were made. -/
theorem eligible_matched (hs : s.WellFormed) (h : Maintained judge q s xs t result)
    (hquiet : ∀ x ∈ xs, Alike x.told x.back) (hfixed : e.item.IsFixed judge j) (hfit : Eligible judge t j n e) :
    ∃ e₀, e₀.item = e.item ∧ Eligible judge (matchItems judge q s).state j n e₀ := by
  have hmatched := (matchItems_assigns hs judge q).wellFormed hs
  have hkept := Narrows.keepPromises q (matchItems judge q s).made (matchItems judge q s).state
  exact (hkept.trans (.alike (h.quiet hquiet))).eligible hmatched (hs.effects (h.effects hs)) hfixed hfit

/-- What goes together after such a round went together before it. -/
theorem eligible (hs : s.WellFormed) (h : Maintained judge q s xs t result) (hquiet : ∀ x ∈ xs, Alike x.told x.back)
    (hfixed : e.item.IsFixed judge j) (hfit : Eligible judge t j n e) :
    ∃ e₀, e₀.item = e.item ∧ Eligible judge s j n e₀ := by
  obtain ⟨e₀, hitem, hfit₀⟩ := h.eligible_matched hs hquiet hfixed hfit
  have hmatched := (matchItems_assigns hs judge q).wellFormed hs
  rw [← hitem] at hfixed
  exact ⟨e₀, hitem, (matchItems_placed hs judge q).eligible hs hmatched hfixed hfit₀⟩

/-- After such a round that succeeds, nothing goes together in its queue. -/
theorem not_eligible (hs : s.WellFormed) (h : Maintained judge q s xs t (.ok made))
    (hquiet : ∀ x ∈ xs, Alike x.told x.back) (hfixed : e.item.IsFixed judge q) : ¬ Eligible judge t q n e := by
  intro hfit
  obtain ⟨e₀, hitem, hfit₀⟩ := h.eligible_matched hs hquiet hfixed hfit
  have hexhausted := matchItems_exhausted hs judge q
  have hpending := hfit₀.mem_pendingEntrants ((matchItems_assigns hs judge q).wellFormed hs)
  have hrefused := hexhausted.refused h.no_fault.2 n hfit₀.registered hfit₀.idle e₀ hpending
  rw [← hitem] at hfixed
  exact hrefused.not_eligible hfixed hfit₀

end Maintained

/-! ### Everybody has a turn -/

/-- An idle node has this name and this registration. -/
def Offers (s : Scheduler) (name : String) (serial : Nat) : Prop :=
  ∃ n ∈ s.pool.nodes, n.name = name ∧ n.serial = serial ∧ n.state = .idle

/-- A subscriber was told of the node in these rounds and exchanges: a party by the news, and a queue by one of the
rounds of matching, after which every idle node refused every item that was still pending in the queue. -/
def Told (judge : Judge) (serial : Nat) (rounds : List (Nat × Scheduler)) (xs : List Exchange) : Subscriber → Prop
  | .party p => ∃ x ∈ xs, ∃ n, x.news = .available p n ∧ n.serial = serial
  | .queue q => ∃ u, (q, u) ∈ rounds ∧ ∀ n ∈ (matchItems judge q u).state.pool.nodes, n.state = .idle →
      ∀ e ∈ ((matchItems judge q u).state.queue q).pendingEntrants, Refused judge (matchItems judge q u).state q n e

/-- Something may happen before a subscriber is told. -/
theorem Told.head {sub : Subscriber} {earlier : List (Nat × Scheduler)} {ys : List Exchange}
    (h : Told judge serial rounds xs sub) : Told judge serial (earlier ++ rounds) (ys ++ xs) sub := by
  cases sub with
  | queue q =>
      obtain ⟨u, hu, hrefused⟩ := h
      exact ⟨u, List.mem_append_right _ hu, hrefused⟩
  | party p =>
      obtain ⟨x, hx, hnews⟩ := h
      exact ⟨x, List.mem_append_right _ hx, hnews⟩

/-- If no turn failed, every subscriber was told. -/
theorem Turns.told (h : Turns judge serial subs s rounds xs t fault) (hs : s.WellFormed) (hnone : fault = none) :
    ∀ sub ∈ subs, Told judge serial rounds xs sub := by
  induction h with
  | done => exact fun sub hsub => absurd hsub List.not_mem_nil
  | @round q _ s _ _ rounds xs _ _ _ hround hrest ih =>
      have hu := hs.effects (hround.effects hs)
      have hrefused := (matchItems_exhausted hs judge q).refused hround.no_fault.2
      refine List.forall_mem_cons.mpr ⟨⟨s, List.mem_cons_self, hrefused⟩, fun sub hsub => ?_⟩
      have hlater : Told judge serial ([(q, s)] ++ rounds) (xs ++ _) sub := (ih hu hnone sub hsub).head
      exact hlater
  | roundFails => cases hnone
  | @news p _ s _ _ x xs n _ hnews hserial htold hback hfault hrest ih =>
      have hsu := Relation.ReflTransGen.head (.note htold) hback
      refine List.forall_mem_cons.mpr ⟨⟨x, List.mem_cons_self, n, hnews, hserial⟩, fun sub hsub => ?_⟩
      have hlater : Told judge serial ([] ++ _) ([x] ++ xs) sub := (ih (hs.effects hsu) hnone sub hsub).head
      exact hlater
  | newsFails => cases hnone

/-- If no turn failed and no party changed anything, what goes together in the end went together in the beginning, and
its queue had no turn. -/
theorem Turns.eligible (h : Turns judge serial subs s rounds xs t fault) (hs : s.WellFormed) (hnone : fault = none)
    (hquiet : ∀ x ∈ xs, Alike x.told x.back) (hfixed : e.item.IsFixed judge j) (hfit : Eligible judge t j n e) :
    .queue j ∉ subs ∧ ∃ e₀, e₀.item = e.item ∧ Eligible judge s j n e₀ := by
  induction h with
  | done => exact ⟨List.not_mem_nil, e, rfl, hfit⟩
  | @round q subs s u t rounds xs ys made _ hround hrest ih =>
      obtain ⟨hfirst, hlater⟩ := List.forall_mem_append.mp hquiet
      have hu := hs.effects (hround.effects hs)
      obtain ⟨hnot, e₁, hitem, hfit₁⟩ := ih hu hnone hlater hfit
      have hfixed₁ : e₁.item.IsFixed judge j := hitem ▸ hfixed
      obtain ⟨e₀, hitem₀, hfit₀⟩ := hround.eligible hs hfirst hfixed₁ hfit₁
      refine ⟨fun hj => ?_, e₀, hitem₀.trans hitem, hfit₀⟩
      rcases List.mem_cons.mp hj with hthis | hother
      · obtain rfl := Subscriber.queue.inj hthis
        exact hround.not_eligible hs hfirst hfixed₁ hfit₁
      · exact hnot hother
  | roundFails => cases hnone
  | @news p subs s _ _ x xs _ _ hnews hserial htold hback hfault hrest ih =>
      obtain ⟨hfirst, hlater⟩ := List.forall_mem_cons.mp hquiet
      have halike := htold.trans hfirst
      obtain ⟨hnot, e₁, hitem, hfit₁⟩ := ih (hs.alike halike) hnone hlater hfit
      have hfixed₁ : e₁.item.IsFixed judge j := hitem ▸ hfixed
      obtain ⟨e₀, hitem₀, hfit₀⟩ := (Narrows.alike halike).eligible hs (hs.alike halike) hfixed₁ hfit₁
      exact ⟨fun hj => hnot ((List.mem_cons.mp hj).resolve_left nofun), e₀, hitem₀.trans hitem, hfit₀⟩
  | newsFails => cases hnone

/-- An operation announced the node: when it has opened the node is idle, and from there to the end of the operation all
who have subscribed have their turns, each of them where the one before it ended, so that all of them are told. -/
structure Announced (judge : Judge) (r : Request) (name : String) (serial : Nat) (s : Scheduler) (xs : List Exchange)
    (t : Scheduler) : Prop where
  /-- All subscribers have their turns, and are told in them. -/
  turns : ∃ v u rounds, s.Opening r v ∧ Alike v u ∧ u.Offers name serial ∧
    Turns judge serial s.pool.subscribers u rounds xs t none ∧
    ∀ sub ∈ s.pool.subscribers, Told judge serial rounds xs sub
  /-- If no party changes anything, then in the end no idle node satisfies the label of an item that is pending in any
  queue, unless one of the item's blockers holds it back. -/
  taken : (∀ x ∈ xs, Alike x.told x.back) → ∀ j n e, e.item.IsFixed judge j → ¬ Eligible judge t j n e

/-- A node is announced if all who have subscribed have their turns when it is idle. -/
theorem Announced.of_turns {r : Request} {name : String} {v : Scheduler} (hu : u.WellFormed) (hopening : s.Opening r v)
    (hnoted : Alike v u) (hoffers : u.Offers name serial) (hsubscribers : u.pool.subscribers = s.pool.subscribers)
    (hturns : Turns judge serial s.pool.subscribers u rounds xs t none) : Announced judge r name serial s xs t where
  turns := ⟨v, u, rounds, hopening, hnoted, hoffers, hturns, hturns.told hu rfl⟩
  taken hquiet j n e hfixed hfit := by
    obtain ⟨hnot, e₀, -, hfit₀⟩ := hturns.eligible hu rfl hquiet hfixed hfit
    rw [← hsubscribers] at hnot
    exact hnot ((hu.subscribed j).mpr (lt_of_mem (.inl hfit₀.pending)))

/-- A node that is registered is announced. -/
theorem announced_of_register {name : String} {labels : NodeLabels} (hs : s.WellFormed)
    (h : (s.register judge name labels).Course xs t (.ok n)) :
    Announced judge (.register name labels) name n.serial s xs t := by
  unfold register at h
  split at h
  case h_1 => cases h
  case h_2 r atoms hatoms =>
    simp only at h
    split at h
    case h_1 => cases h
    case h_2 hname =>
      have hopening := Opening.join hatoms hname
      have hnoted := Alike.log ((s.withRegistry r).withPool (·.add name atoms))
        (.nodeRegistered name (Node.fresh name atoms (s.withRegistry r).pool.enrolled).labelsText)
      have hsubscribers := (Unchanged.internLabels hatoms).subscribers
      obtain ⟨first, hnotify, hresult⟩ := Dialogue.Course.of_returning h
      obtain ⟨rounds, fault, hturns, rfl⟩ := notify_turns hnotify
      cases fault with
      | some f => cases hresult
      | none =>
          have hserial : n.serial = (s.withRegistry r).pool.enrolled := by
            rw [Except.ok.inj hresult]
            exact Pool.registered?_getD_serial t.pool (.fresh name atoms (s.withRegistry r).pool.enrolled)
          rw [hserial]
          refine .of_turns ((hs.effects hopening.effects).alike hnoted) hopening hnoted ?_ hsubscribers
            (hsubscribers ▸ hturns)
          exact ⟨_, List.mem_append_right _ (List.mem_singleton_self _), rfl, rfl, rfl⟩

/-- A node that is released from outside is announced. -/
theorem announced_of_setState {name : String} (hs : s.WellFormed)
    (h : (s.setState judge name .idle).Course xs t (.ok ())) :
    ∃ n, s.pool.find? name = some n ∧ Announced judge (.setState name .idle) name n.serial s xs t := by
  unfold setState at h
  split at h
  case h_1 => cases h
  case h_2 n hfind =>
    cases hholds : n.holds with
    | some i => rw [hholds] at h; cases h
    | none =>
        rw [hholds] at h
        have hopening : s.Opening (.setState name .idle) _ := .turn hfind fun _ => hholds
        have hnoted := Alike.log (s.withPool (·.update name fun n => { n with state := .idle }))
          (.nodeStateChanged name n.state.name NodeState.idle.name)
        obtain ⟨hn, hname⟩ := Pool.mem_of_find? hfind
        obtain ⟨rounds, fault, hturns, hresult⟩ := notify_turns h
        cases fault with
        | some f => cases hresult
        | none =>
            refine ⟨n, hfind, .of_turns ((hs.effects hopening.effects).alike hnoted) hopening hnoted ?_ rfl hturns⟩
            exact ⟨_, Pool.mem_update.mpr ⟨n, hn, if_pos hname⟩, hname, rfl, rfl⟩

/-! ### A completion is the affair of one queue -/

/-- A party that is told anything while a queue matches is a listener of the queue. -/
theorem Maintained.listener {result : Except Fault (List Nat)} (hs : s.WellFormed)
    (h : Maintained judge q s xs t result) :
    ∀ x ∈ xs, ∃ p ∈ (s.queue q).listeners, ∃ id, x.news = .assigned p ⟨q, id⟩ := by
  have hpairs : ∀ pairs xs, List.Forall₂ (Tells q (s.published judge q)) pairs xs →
      ∀ x ∈ xs, ∃ pair ∈ pairs, x.news = .assigned pair.2 ⟨q, pair.1⟩ := by
    intro pairs xs htells
    induction htells with
    | nil => exact fun x hx => absurd hx List.not_mem_nil
    | cons htold _ ih =>
        refine List.forall_mem_cons.mpr ⟨⟨_, List.mem_cons_self, htold.news⟩, fun x hx => ?_⟩
        obtain ⟨pair, hpair, hnews⟩ := ih x hx
        exact ⟨pair, List.mem_cons_of_mem _ hpair, hnews⟩
  intro x hx
  obtain ⟨pair, hpair, hnews⟩ := hpairs _ xs h.tells x hx
  obtain ⟨id, -, hlistener⟩ := List.mem_flatMap.mp hpair
  obtain ⟨p, hp, rfl⟩ := List.mem_map.mp hlistener
  rw [(published_promised judge q s).listeners, (matchItems_placed hs judge q).listeners] at hp
  exact ⟨p, hp, id, hnews⟩

/-- When a queue matches and its listeners change nothing, the same items are pending in all other queues. -/
theorem Maintained.elsewhere {result : Except Fault (List Nat)} (hs : s.WellFormed)
    (h : Maintained judge q s xs t result) (hquiet : ∀ x ∈ xs, Alike x.told x.back) {j : Nat} (hj : j ≠ q) :
    (t.queue j).pending = (s.queue j).pending := by
  rw [(h.quiet hquiet).queue, (published_promised judge q s).pending, (matchItems_placed hs judge q).elsewhere j hj]

/-- When an item completes that was building, it ends first, and then its own queue matches. -/
theorem completed_course {item : ItemRef} {result : Except Fault Unit} (hs : s.WellFormed)
    (hbuilding : s.isBuildingIn q item = true) (h : (s.completed judge q item).Course xs t result) :
    ∃ u first, u.WellFormed ∧ Alike (s.conclude q item) u ∧ Maintained judge q u xs t first ∧
      result = first.map fun _ => () := by
  rw [completed, if_pos hbuilding] at h
  obtain ⟨first, hmaintain, hresult⟩ := Dialogue.Course.of_returning h
  have hconcluded : Effect Set.univ s (s.conclude q item) := .complete hbuilding
  exact ⟨_, first, (hs.effect hconcluded).alike (.log _ _), .log _ _, maintain_course hmaintain, hresult⟩

/-- An item that is not building does not complete, and nobody is told anything. -/
theorem completed_course_refused {item : ItemRef} {result : Except Fault Unit}
    (hbuilding : ¬ s.isBuildingIn q item = true) (h : (s.completed judge q item).Course xs t result) :
    xs = [] ∧ t = s := by
  rw [completed, if_neg hbuilding] at h
  cases h
  exact ⟨rfl, rfl⟩

/-- When an item completes, only listeners of its queue are told anything. -/
theorem told_of_completed {item : ItemRef} {result : Except Fault Unit} (hs : s.WellFormed)
    (h : (s.completed judge q item).Course xs t result) :
    ∀ x ∈ xs, ∃ p ∈ (s.queue q).listeners, ∃ id, x.news = .assigned p ⟨q, id⟩ := by
  by_cases hbuilding : s.isBuildingIn q item = true
  case pos =>
    obtain ⟨u, first, hu, halike, hmaintained, -⟩ := completed_course hs hbuilding h
    have hlisteners : (u.queue q).listeners = (s.queue q).listeners := by
      rw [halike.queue, queue_conclude]
      split <;> rfl
    rw [← hlisteners]
    exact hmaintained.listener hu
  case neg =>
    obtain ⟨rfl, -⟩ := completed_course_refused hbuilding h
    exact fun x hx => absurd hx List.not_mem_nil

/-- When an item completes and its listeners change nothing, the same items are pending in all other queues. -/
theorem pending_of_completed {item : ItemRef} {result : Except Fault Unit} (hs : s.WellFormed)
    (h : (s.completed judge q item).Course xs t result) (hquiet : ∀ x ∈ xs, Alike x.told x.back) {j : Nat}
    (hj : j ≠ q) : (t.queue j).pending = (s.queue j).pending := by
  by_cases hbuilding : s.isBuildingIn q item = true
  case pos =>
    obtain ⟨u, first, hu, halike, hmaintained, -⟩ := completed_course hs hbuilding h
    rw [hmaintained.elsewhere hu hquiet hj, halike.queue, queue_conclude, if_neg fun hq => hj hq.1]
  case neg =>
    obtain ⟨-, rfl⟩ := completed_course_refused hbuilding h
    rfl

/-- When an item completes and its listeners change nothing, no item stays in its own queue that an idle node could
take. -/
theorem taken_of_completed {item : ItemRef} (hs : s.WellFormed) (hbuilding : s.isBuildingIn q item = true)
    (h : (s.completed judge q item).Course xs t (.ok ())) (hquiet : ∀ x ∈ xs, Alike x.told x.back)
    (hfixed : e.item.IsFixed judge q) : ¬ Eligible judge t q n e := by
  obtain ⟨u, first, hu, -, hmaintained, hresult⟩ := completed_course hs hbuilding h
  cases first with
  | error f => cases hresult
  | ok made => exact hmaintained.not_eligible hu hquiet hfixed

end Scheduler

/-- At any moment of a run, also while other operations wait: a node that is registered or released from outside is
announced to all who have subscribed by then, who have their turns one after the other, so that, unless a party changes
something, no queue of the pool keeps an item that an idle node could take. But when an item completes, only listeners
of its own queue are told anything, and as far as these change nothing, only its own queue has no such item any more:
all that was pending in other queues is pending still, whether or not a node was freed. -/
theorem Config.run_available (moves : List Move) (judge : Judge) :
    let s := (run moves).state
    (∀ name labels xs t n, (s.register judge name labels).Course xs t (.ok n) →
      Scheduler.Announced judge (.register name labels) name n.serial s xs t) ∧
    (∀ name xs t, (s.setState judge name .idle).Course xs t (.ok ()) →
      ∃ n, s.pool.find? name = some n ∧ Scheduler.Announced judge (.setState name .idle) name n.serial s xs t) ∧
    ∀ q item xs t result, (s.completed judge q item).Course xs t result →
      (∀ x ∈ xs, ∃ p ∈ (s.queue q).listeners, ∃ id, x.news = .assigned p ⟨q, id⟩) ∧
      ((∀ x ∈ xs, Scheduler.Alike x.told x.back) →
        (∀ j, j ≠ q → (t.queue j).pending = (s.queue j).pending) ∧
        (s.isBuildingIn q item = true → result = .ok () →
          ∀ n e, e.item.IsFixed judge q → ¬ Scheduler.Eligible judge t q n e)) := by
  intro s
  have hs : s.WellFormed := run_wellFormed moves
  refine ⟨fun name labels xs t n h => ?_, fun name xs t h => ?_, fun q item xs t result h =>
    ⟨Scheduler.told_of_completed hs h, fun hquiet => ⟨fun j hj => ?_, ?_⟩⟩⟩
  · exact Scheduler.announced_of_register hs h
  · exact Scheduler.announced_of_setState hs h
  · exact Scheduler.pending_of_completed hs h hquiet hj
  · rintro hbuilding rfl n e hfixed
    exact Scheduler.taken_of_completed hs hbuilding h hquiet hfixed

/-- Two queues and a party hear of available nodes: a node is registered, one that is idle is released once more,
and an item of the first queue completes. -/
theorem Config.run_available_two_queues :
    let moves : List Move :=
      [.ask .lenient (.openQueue []), .ask .lenient (.openQueue []), .ask .lenient (.register "a" (.parts [])),
        .ask .lenient (.register "b" (.parts [])), .ask .lenient (.submit 0 (.plain .none) "t" []),
        .ask .lenient (.addSubscriber 5)]
    let s := (run moves).state
    (∃ xs t n, (s.register .lenient "c" (.parts [])).Course xs t (.ok n) ∧
      Scheduler.Announced .lenient (.register "c" (.parts [])) "c" n.serial s xs t) ∧
    (∃ xs t, (s.setState .lenient "b" .idle).Course xs t (.ok ()) ∧
      ∃ n, s.pool.find? "b" = some n ∧ Scheduler.Announced .lenient (.setState "b" .idle) "b" n.serial s xs t) ∧
    ∃ xs t, (s.completed .lenient 0 ⟨0, 1⟩).Course xs t (.ok ()) ∧
      (∀ x ∈ xs, ∃ p ∈ (s.queue 0).listeners, ∃ id, x.news = .assigned p ⟨0, id⟩) ∧
      (t.queue 1).pending = (s.queue 1).pending ∧
      ∀ n e, e.item.IsFixed .lenient 0 → ¬ Scheduler.Eligible .lenient t 0 n e := by
  intro moves s
  have hcourse {α : Type} (d : Dialogue α) := Dialogue.Course.exists_of_play
    (fun (_ : Unit) s _ => ((), s, none)) (fun _ _ _ => .refl) d ()
  obtain ⟨hregister, hset, hcompleted⟩ := run_available moves .lenient
  refine ⟨?_, ?_, ?_⟩
  · obtain ⟨xs, h, -⟩ := hcourse (s.register .lenient "c" (.parts []))
    have hresult : ((s.register .lenient "c" (.parts [])).play (fun (_ : Unit) s _ => ((), s, none)) ()).2.2 =
        .ok (.fresh "c" ["c"] 2) := by decide
    rw [hresult] at h
    exact ⟨xs, _, _, h, hregister "c" (.parts []) xs _ _ h⟩
  · obtain ⟨xs, h, -⟩ := hcourse (s.setState .lenient "b" .idle)
    have hresult : ((s.setState .lenient "b" .idle).play (fun (_ : Unit) s _ => ((), s, none)) ()).2.2 =
        .ok () := by decide
    rw [hresult] at h
    exact ⟨xs, _, h, hset "b" xs _ h⟩
  · obtain ⟨xs, h, hback⟩ := hcourse (s.completed .lenient 0 ⟨0, 1⟩)
    have hresult : ((s.completed .lenient 0 ⟨0, 1⟩).play (fun (_ : Unit) s _ => ((), s, none)) ()).2.2 =
        .ok () := by decide
    rw [hresult] at h
    have hquiet : ∀ x ∈ xs, Scheduler.Alike x.told x.back := by
      intro x hx
      obtain ⟨-, hanswer⟩ := hback x hx
      have hsame : x.told = x.back := congrArg Prod.fst hanswer
      rw [hsame]
      exact .refl _
    obtain ⟨htold, hrest⟩ := hcompleted 0 ⟨0, 1⟩ xs _ _ h
    obtain ⟨hpending, htaken⟩ := hrest hquiet
    exact ⟨xs, _, h, htold, hpending 1 (by decide), htaken (by decide) rfl⟩

/-- The only node runs an item of the first queue while an item of the second one waits for it. After the first
item completes the node is idle, nothing holds the other item back, and the node satisfies its label: the second
queue has not had its round of matching. -/
theorem Config.run_freed_node_unannounced :
    let moves : List Move :=
      [.ask .lenient (.openQueue []), .ask .lenient (.openQueue []), .ask .lenient (.register "n" (.parts [])),
        .ask .lenient (.submit 0 (.plain .none) "a" []), .ask .lenient (.submit 1 (.plain .none) "b" [])]
    let c := run (moves ++ [.ask .lenient (.completed 0 ⟨0, 1⟩)])
    (run moves).state.isBuildingIn 0 ⟨0, 1⟩ = true ∧ c.waiting.length = 0 ∧
      (c.state.get? ⟨0, 1⟩).map Entrant.state = some .completed ∧ ∃ n e, Scheduler.Eligible .lenient c.state 1 n e := by
  refine ⟨by decide, by decide, by decide, .fresh "n" ["n"] 0, .fresh ⟨1, ⟨"b", by decide⟩, none, []⟩, ?_⟩
  exact
    { registered := by decide
      idle := rfl
      known := by decide
      pending := by decide
      free := fun b hb => absurd hb List.not_mem_nil
      meets := rfl }

end LabelScheduler
