import LabelScheduler.Proofs.Scheduler.Run

/-!
# Matching in plain terms

Plain matching keeps no answers. Whenever a node is to be given an item, it asks the blockers of the pending
items in the state of that moment, and takes the item with the lowest number that all its blockers let go and
whose label the node satisfies. If outside parties judge by the pool and the queues alone, matching does the
same: the answers that a pass keeps are those that it would get again, because it forgets them when it makes
an assignment. Since it keeps them, a pass asks the blockers of an item at most once between two assignments.
-/

namespace LabelScheduler

/-- Outside parties judge by the pool and the queues, and not by the journal or the contacts. -/
def Judge.Impartial (judge : Judge) : Prop :=
  ∀ p s t item, Scheduler.Alike s t → judge p t item = judge p s item

namespace Scheduler

variable {judge : Judge} {q k count : Nat} {s t u : Scheduler} {n : Node} {nodes : List Node} {e : Entrant}
  {made made' : List Nat} {fault fault' : Option Fault} {m : Matched}

/-- The answer for an item in this state: the first one of a blocker that does not let it go. -/
def answer (judge : Judge) (q : Nat) (s : Scheduler) (e : Entrant) : Verdict :=
  ((e.item.blockers.map fun b => b.verdict judge s q ⟨q, e.item.id⟩).find? (· ≠ .free)).getD .free

/-- The item is held back, or it is let go and the node does not satisfy its label. -/
def PassedOver (judge : Judge) (q : Nat) (s : Scheduler) (n : Node) (e : Entrant) : Prop :=
  (∃ r, answer judge q s e = .held r) ∨ answer judge q s e = .free ∧ n.meets e.item.label = false

/-- All pending items with lower numbers are passed over. -/
def EarlierPassedOver (judge : Judge) (q : Nat) (s : Scheduler) (n : Node) (e : Entrant) : Prop :=
  ∀ e' ∈ (s.queue q).pendingEntrants, e'.item.id < e.item.id → PassedOver judge q s n e'

/-- Which of the pending items a node is given in this state: the one with the lowest number that is let go
and whose label the node satisfies, or none. If the answer for an item with a lower number is a fault, then
the choice fails. -/
inductive Choice (judge : Judge) (q : Nat) (s : Scheduler) (n : Node) : Except Fault (Option Entrant) → Prop where
  | item {e : Entrant} (hpending : e ∈ (s.queue q).pendingEntrants) (hfree : answer judge q s e = .free)
      (hmeets : n.meets e.item.label = true) (hearlier : EarlierPassedOver judge q s n e) :
      Choice judge q s n (.ok (some e))
  | nobody (h : ∀ e ∈ (s.queue q).pendingEntrants, PassedOver judge q s n e) : Choice judge q s n (.ok none)
  | failed {e : Entrant} {f : Fault} (hpending : e ∈ (s.queue q).pendingEntrants)
      (hf : answer judge q s e = .failed f) (hearlier : EarlierPassedOver judge q s n e) :
      Choice judge q s n (.error f)

/-- A plain pass over nodes, from a state to a state, with the items that it assigns and the fault that ends
it. -/
inductive PlainPass (judge : Judge) (q : Nat) :
    List Node → Scheduler → List Nat → Scheduler → Option Fault → Prop where
  | done {s : Scheduler} : PlainPass judge q [] s [] s none
  | item {n : Node} {nodes : List Node} {s t : Scheduler} {e : Entrant} {made : List Nat} {fault : Option Fault}
      (h : Choice judge q s n (.ok (some e))) (hrest : PlainPass judge q nodes (s.assign q n e) made t fault) :
      PlainPass judge q (n :: nodes) s (e.item.id :: made) t fault
  | nobody {n : Node} {nodes : List Node} {s t : Scheduler} {made : List Nat} {fault : Option Fault}
      (h : Choice judge q s n (.ok none)) (hrest : PlainPass judge q nodes s made t fault) :
      PlainPass judge q (n :: nodes) s made t fault
  | failed {n : Node} {nodes : List Node} {s : Scheduler} {f : Fault} (h : Choice judge q s n (.error f)) :
      PlainPass judge q (n :: nodes) s [] s (some f)

/-- Plain matching: passes over the nodes that are idle when the pass begins, until one makes no assignment or
fails. They are counted. -/
inductive PlainPasses (judge : Judge) (q : Nat) :
    (count : Nat) → Scheduler → List Nat → Scheduler → Option Fault → Prop where
  | last {s t : Scheduler} {made : List Nat} {fault : Option Fault}
      (h : PlainPass judge q s.pool.idle s made t fault) (hend : fault ≠ none ∨ made = []) :
      PlainPasses judge q 1 s made t fault
  | again {count : Nat} {s t u : Scheduler} {made made' : List Nat} {fault : Option Fault}
      (h : PlainPass judge q s.pool.idle s made t none) (hmade : made ≠ [])
      (hrest : PlainPasses judge q count t made' u fault) :
      PlainPasses judge q (count + 1) s (made ++ made') u fault

/-- An item is let go if all its blockers let it go. -/
theorem answer_eq_free_iff :
    answer judge q s e = .free ↔ ∀ b ∈ e.item.blockers, b.verdict judge s q ⟨q, e.item.id⟩ = .free := by
  unfold answer
  cases hfind : (e.item.blockers.map fun b => b.verdict judge s q ⟨q, e.item.id⟩).find? (· ≠ .free) with
  | none => simpa using hfind
  | some v =>
      obtain ⟨b, hb, rfl⟩ := List.mem_map.mp (List.mem_of_find?_eq_some hfind)
      have hv := by simpa using List.find?_some hfind
      exact ⟨fun h => absurd h hv, fun h => absurd (h b hb) hv⟩

/-! ### Plain matching has one outcome -/

/-- An item that is let go and whose label the node satisfies is not passed over. -/
theorem not_passedOver_of_free (hfree : answer judge q s e = .free) (hmeets : n.meets e.item.label = true) :
    ¬ PassedOver judge q s n e := by
  rintro (⟨r, hr⟩ | ⟨-, hnot⟩)
  · exact nomatch hr.symm.trans hfree
  · exact nomatch hnot.symm.trans hmeets

/-- An item for which the answer is a fault is not passed over. -/
theorem not_passedOver_of_failed {f : Fault} (hf : answer judge q s e = .failed f) :
    ¬ PassedOver judge q s n e := by
  rintro (⟨r, hr⟩ | ⟨hfree, -⟩)
  · exact nomatch hr.symm.trans hf
  · exact nomatch hfree.symm.trans hf

/-- Only one pending item is not passed over itself while all earlier ones are. -/
theorem eq_of_earlierPassedOver (hq : (s.queue q).Orderly) {e e' : Entrant}
    (he : e ∈ (s.queue q).pendingEntrants) (he' : e' ∈ (s.queue q).pendingEntrants)
    (hnot : ¬ PassedOver judge q s n e) (hnot' : ¬ PassedOver judge q s n e')
    (hearlier : EarlierPassedOver judge q s n e) (hearlier' : EarlierPassedOver judge q s n e') : e = e' := by
  have hid : e.item.id = e'.item.id :=
    Nat.le_antisymm (Nat.not_lt.mp fun hlt => hnot' (hearlier e' he' hlt))
      (Nat.not_lt.mp fun hlt => hnot (hearlier' e he hlt))
  have hget := (hq.mem_pendingEntrants.mp he).1
  rw [hid, (hq.mem_pendingEntrants.mp he').1] at hget
  exact (Option.some.inj hget).symm

/-- There is one choice. -/
theorem Choice.unique (hq : (s.queue q).Orderly) {r r' : Except Fault (Option Entrant)}
    (h : Choice judge q s n r) (h' : Choice judge q s n r') : r = r' := by
  cases h with
  | @item e he hfree hmeets hearlier =>
      have hnot := not_passedOver_of_free hfree hmeets
      cases h' with
      | item he' hfree' hmeets' hearlier' =>
          rw [eq_of_earlierPassedOver hq he he' hnot (not_passedOver_of_free hfree' hmeets') hearlier hearlier']
      | nobody hall => exact absurd (hall e he) hnot
      | failed he' hf hearlier' =>
          obtain rfl := eq_of_earlierPassedOver hq he he' hnot (not_passedOver_of_failed hf) hearlier hearlier'
          exact nomatch hfree.symm.trans hf
  | nobody hall =>
      cases h' with
      | item he hfree hmeets _ => exact absurd (hall _ he) (not_passedOver_of_free hfree hmeets)
      | nobody _ => rfl
      | failed he hf _ => exact absurd (hall _ he) (not_passedOver_of_failed hf)
  | @failed e f he hf hearlier =>
      have hnot := not_passedOver_of_failed (n := n) hf
      cases h' with
      | item he' hfree hmeets hearlier' =>
          have hnot' := not_passedOver_of_free hfree hmeets
          obtain rfl := eq_of_earlierPassedOver hq he he' hnot hnot' hearlier hearlier'
          exact nomatch hfree.symm.trans hf
      | nobody hall => exact absurd (hall e he) hnot
      | failed he' hf' hearlier' =>
          obtain rfl := eq_of_earlierPassedOver hq he he' hnot (not_passedOver_of_failed hf') hearlier hearlier'
          rw [Verdict.failed.inj (hf.symm.trans hf')]

/-- An item that is chosen is pending. -/
theorem Choice.pending (hq : (s.queue q).Orderly) (h : Choice judge q s n (.ok (some e))) :
    e.item.id ∈ (s.queue q).pending := by
  cases h with
  | item he hfree hmeets hearlier => exact (hq.mem_pendingEntrants.mp he).2

namespace PlainPass

/-- Plain passes leave well-formed states behind. -/
theorem wellFormed (hs : s.WellFormed) (h : PlainPass judge q nodes s made t fault) : t.WellFormed := by
  induction h with
  | done => exact hs
  | item h _ ih => exact ih (hs.assign _ (h.pending (hs.queues q)))
  | nobody _ _ ih => exact ih hs
  | failed => exact hs

/-- A plain pass has one outcome. -/
theorem unique (hs : s.WellFormed) (h : PlainPass judge q nodes s made t fault)
    (h' : PlainPass judge q nodes s made' u fault') : made = made' ∧ t = u ∧ fault = fault' := by
  induction h generalizing made' with
  | done =>
      cases h'
      exact ⟨rfl, rfl, rfl⟩
  | @item n nodes s t e made fault h _ ih =>
      cases h' with
      | item h' hrest' =>
          obtain rfl := Option.some.inj (Except.ok.inj (h.unique (hs.queues q) h'))
          obtain ⟨rfl, rfl, rfl⟩ := ih (hs.assign _ (h.pending (hs.queues q))) hrest'
          exact ⟨rfl, rfl, rfl⟩
      | nobody h' _ => exact nomatch h.unique (hs.queues q) h'
      | failed h' => exact nomatch h.unique (hs.queues q) h'
  | nobody h _ ih =>
      cases h' with
      | item h' _ => exact nomatch h.unique (hs.queues q) h'
      | nobody _ hrest' => exact ih hs hrest'
      | failed h' => exact nomatch h.unique (hs.queues q) h'
  | failed h =>
      cases h' with
      | item h' _ => exact nomatch h.unique (hs.queues q) h'
      | nobody h' _ => exact nomatch h.unique (hs.queues q) h'
      | failed h' =>
          obtain rfl := Except.error.inj (h.unique (hs.queues q) h')
          exact ⟨rfl, rfl, rfl⟩

end PlainPass

/-- Plain matching has one outcome, after one number of passes. -/
theorem PlainPasses.unique {count' : Nat} (hs : s.WellFormed) (h : PlainPasses judge q count s made t fault)
    (h' : PlainPasses judge q count' s made' u fault') :
    count = count' ∧ made = made' ∧ t = u ∧ fault = fault' := by
  induction h generalizing count' made' with
  | last h hend =>
      cases h' with
      | last h' _ => exact ⟨rfl, h.unique hs h'⟩
      | again h' hmade _ =>
          obtain ⟨rfl, rfl, rfl⟩ := h.unique hs h'
          exact absurd (hend.resolve_left (not_not.mpr rfl)) hmade
  | again h hmade _ ih =>
      cases h' with
      | last h' hend =>
          obtain ⟨rfl, rfl, rfl⟩ := h.unique hs h'
          exact absurd (hend.resolve_left (not_not.mpr rfl)) hmade
      | again h' _ hrest' =>
          obtain ⟨rfl, rfl, -⟩ := h.unique hs h'
          obtain ⟨rfl, rfl, rfl, rfl⟩ := ih (h.wellFormed hs) hrest'
          exact ⟨rfl, rfl, rfl, rfl⟩

/-! ### Matching follows plain matching -/

/-- Blockers answer the same in states that are alike, if outside parties judge by the pool and the queues. -/
theorem verdict_alike (hj : judge.Impartial) (h : Alike s t) (b : Blocker) (item : ItemRef) :
    b.verdict judge t q item = b.verdict judge s q item := by
  cases b with
  | item awaited => simp only [Blocker.verdict, h.get?]
  | task name queued => simp only [Blocker.verdict, h.queue]
  | run r => simp only [Blocker.verdict, h.queue]
  | party p => exact hj p s t item h

/-- So the answers for items are the same. -/
theorem answer_alike (hj : judge.Impartial) (h : Alike s t) (e : Entrant) :
    answer judge q t e = answer judge q s e := by
  simp only [answer, verdict_alike hj h]

/-- What the blockers of pending items answer does not depend on the journal or the contacts. -/
def Firm (judge : Judge) (q : Nat) (s : Scheduler) : Prop :=
  ∀ e ∈ (s.queue q).pendingEntrants, ∀ b ∈ e.item.blockers, ∀ t, Alike s t →
    b.verdict judge t q ⟨q, e.item.id⟩ = b.verdict judge s q ⟨q, e.item.id⟩

/-- It does not if outside parties judge by the pool and the queues. -/
theorem Firm.of_impartial (hj : judge.Impartial) (q : Nat) (s : Scheduler) : Firm judge q s :=
  fun _ _ b _ _ ht => verdict_alike hj ht b _

/-- What the blockers of an item were found to answer is the answer for it. -/
theorem answer_of_answered (hfirm : Firm judge q s) (he : e ∈ (s.queue q).pendingEntrants) {v : Verdict}
    (h : Answered judge s q ⟨q, e.item.id⟩ e.item.blockers v) : answer judge q s e = v := by
  have hsays {b : Blocker} (hmem : b ∈ e.item.blockers) {v : Verdict} (hb : Says judge s q ⟨q, e.item.id⟩ b v) :
      b.verdict judge s q ⟨q, e.item.id⟩ = v := by
    obtain ⟨t, hst, hv⟩ := hb
    exact (hfirm e he b hmem t hst).symm.trans hv
  have hsplit {v : Verdict} (hv : v ≠ .free) : (∃ before b after, e.item.blockers = before ++ b :: after ∧
      (∀ c ∈ before, Says judge s q ⟨q, e.item.id⟩ c .free) ∧ Says judge s q ⟨q, e.item.id⟩ b v) →
      answer judge q s e = v := by
    rintro ⟨before, b, after, hbs, hbefore, hb⟩
    have hmem : b ∈ e.item.blockers := hbs ▸ List.mem_append_right _ List.mem_cons_self
    have hnone : (before.map fun b => b.verdict judge s q ⟨q, e.item.id⟩).find? (· ≠ .free) = none := by
      simpa using fun c hc => hsays (hbs ▸ List.mem_append_left _ hc) (hbefore c hc)
    rw [answer, hbs, List.map_append, List.find?_append, hnone, List.map_cons, hsays hmem hb]
    simp [hv]
  cases v with
  | free => exact answer_eq_free_iff.mpr fun b hb => hsays hb (h b hb)
  | held r => exact hsplit nofun h
  | failed f => exact hsplit nofun h

/-- Items that are refused are passed over. -/
theorem Refused.passedOver (hfirm : Firm judge q s) (he : e ∈ (s.queue q).pendingEntrants)
    (h : Refused judge s q n e) : PassedOver judge q s n e :=
  h.imp (fun ⟨r, hr⟩ => ⟨r, answer_of_answered hfirm he hr⟩) fun ⟨hfree, hmeets⟩ =>
    ⟨answer_of_answered hfirm he hfree, hmeets⟩

/-- What stands before an item among the pending ones has a lower number, and the other way round. -/
theorem earlierPassedOver (hfirm : Firm judge q s) (hq : (s.queue q).Orderly) {before after : List Entrant}
    (hes : (s.queue q).pendingEntrants = before ++ e :: after)
    (hrefused : ∀ e' ∈ before, Refused judge s q n e') : EarlierPassedOver judge q s n e := by
  intro e' he' hlt
  have hincreasing := hq.pendingEntrants_increasing
  have hsplit := hes ▸ he'
  rw [hes] at hincreasing
  have hafter := List.pairwise_cons.mp (List.pairwise_append.mp hincreasing).2.1
  rcases List.mem_append.mp hsplit with hbefore | hrest
  · exact (hrefused e' hbefore).passedOver hfirm he'
  · rcases List.mem_cons.mp hrest with rfl | hlater
    · exact absurd hlt (Nat.lt_irrefl _)
    · exact absurd hlt (Nat.lt_asymm (hafter.1 e' hlater))

/-- The choice among the pending items is the plain one. -/
theorem Selected.choice (hfirm : Firm judge q s) (hq : (s.queue q).Orderly)
    {r : Except Fault (Answers × Option Entrant)} (h : Selected judge q n s (s.queue q).pendingEntrants (t, r)) :
    Choice judge q s n (r.map Prod.snd) := by
  have hmem {e : Entrant} {before after : List Entrant}
      (hes : (s.queue q).pendingEntrants = before ++ e :: after) : e ∈ (s.queue q).pendingEntrants :=
    hes ▸ List.mem_append_right _ List.mem_cons_self
  cases h with
  | failed before after _ hes hrefused hf =>
      exact .failed (hmem hes) (answer_of_answered hfirm (hmem hes) hf) (earlierPassedOver hfirm hq hes hrefused)
  | nobody _ _ hrefused => exact .nobody fun e he => (hrefused e he).passedOver hfirm he
  | first before after _ hes hrefused hfree hmeets =>
      exact .item (hmem hes) (answer_of_answered hfirm (hmem hes) hfree) hmeets
        (earlierPassedOver hfirm hq hes hrefused)

/-- The choice is the same in states that are alike. -/
theorem Choice.alike (hj : judge.Impartial) (h : Alike s t) {r : Except Fault (Option Entrant)}
    (hr : Choice judge q s n r) : Choice judge q t n r := by
  have hpassed {e : Entrant} (he : PassedOver judge q s n e) : PassedOver judge q t n e := by
    rw [PassedOver, answer_alike hj h]
    exact he
  have hearlier {e : Entrant} (he : EarlierPassedOver judge q s n e) : EarlierPassedOver judge q t n e :=
    fun e' he' hlt => hpassed (he e' (h.queue q ▸ he') hlt)
  cases hr with
  | item he hfree hmeets hbefore =>
      exact .item (h.queue q ▸ he) ((answer_alike hj h _).trans hfree) hmeets (hearlier hbefore)
  | nobody hall => exact .nobody fun e he => hpassed (hall e (h.queue q ▸ he))
  | failed he hf hbefore => exact .failed (h.queue q ▸ he) ((answer_alike hj h _).trans hf) (hearlier hbefore)

/-- Assigning an item changes states that are alike alike. -/
theorem Alike.assign (h : Alike s t) (q : Nat) (n : Node) (e : Entrant) :
    Alike (s.assign q n e) (t.assign q n e) := by
  refine ⟨congrArg (·.occupy n.name e.item.id) h.pool, ?_⟩
  simp only [Scheduler.assign, Scheduler.log, withPool, withQueue, h.queues, h.queue]

/-- A plain pass gives nothing to anybody where nothing is pending. -/
theorem PlainPass.of_pendingEntrants_eq_nil (h : (s.queue q).pendingEntrants = []) (nodes : List Node) :
    PlainPass judge q nodes s [] s none := by
  induction nodes with
  | nil => exact .done
  | cons n nodes ih => exact .nobody (.nobody fun e he => absurd (h ▸ he) List.not_mem_nil) ih

/-- A walk over nodes does what a plain pass does, from any state that is alike. -/
theorem Walk.plainPass (hj : judge.Impartial) (hs : s.WellFormed) (h : Walk judge q nodes s m) (hsu : Alike s u) :
    ∃ t, PlainPass judge q nodes u m.made t m.fault ∧ Alike t m.state := by
  induction h generalizing u with
  | done h =>
      refine ⟨u, ?_, hsu.symm⟩
      rcases h with rfl | hnone
      · exact .done
      · exact .of_pendingEntrants_eq_nil (hsu.queue q ▸ hnone) _
  | failed h =>
      have hchoice := (h.choice (.of_impartial hj q _) (hs.queues q)).alike hj hsu
      cases h with
      | failed before after halike hes hrefused hf => exact ⟨u, .failed hchoice, hsu.symm.trans halike⟩
  | nobody h _ ih =>
      have hchoice := (h.choice (.of_impartial hj q _) (hs.queues q)).alike hj hsu
      cases h with
      | nobody halike hk hrefused =>
          obtain ⟨t, hpass, ht⟩ := ih (hs.alike halike) (halike.symm.trans hsu)
          exact ⟨t, .nobody hchoice hpass, ht⟩
  | @given n nodes s t known e m h hfit _ ih =>
      have hchoice := (h.choice (.of_impartial hj q _) (hs.queues q)).alike hj hsu
      cases h with
      | first before after halike hes hrefused hfree hmeets =>
          obtain ⟨t', hpass, ht'⟩ := ih ((hs.alike halike).assign n hfit.pending)
            ((halike.symm.trans hsu).assign q n e)
          exact ⟨t', .item hchoice hpass, ht'⟩

/-- A match pass does what a plain pass does, from any state that is alike. -/
theorem matchPass_plainPass (hj : judge.Impartial) (hs : s.WellFormed) (hsu : Alike s u) (q k : Nat) :
    ∃ t, PlainPass judge q u.pool.idle u (matchPass judge q k s).made t (matchPass judge q k s).fault ∧
      Alike t (matchPass judge q k s).state := by
  have hnoted := noted_alike q k s
  have hidle : u.pool.idle = s.pool.idle := by rw [hsu.pool]
  rw [hidle]
  exact (matchPass_walk hs judge q k).plainPass hj (hs.alike hnoted) (hnoted.symm.trans hsu)

/-- Passes do what plain matching does, from any state that is alike. -/
theorem Passes.plainPasses (hj : judge.Impartial) (hs : s.WellFormed) (h : Passes judge q k count s m)
    (hsu : Alike s u) : ∃ t, PlainPasses judge q count u m.made t m.fault ∧ Alike t m.state := by
  induction h generalizing u with
  | @last k s hend =>
      obtain ⟨t, hpass, ht⟩ := matchPass_plainPass hj hs hsu q k
      exact ⟨t, .last hpass hend, ht⟩
  | @again k count s m hfault hmade _ ih =>
      obtain ⟨t, hpass, ht⟩ := matchPass_plainPass hj hs hsu q k
      obtain ⟨t', hrest, ht'⟩ := ih ((matchPass_assigns hs judge q k).wellFormed hs) ht.symm
      rw [hfault] at hpass
      exact ⟨t', .again hpass hmade hrest, ht'⟩

/-! ### Blockers are asked at most once between two assignments -/

/-- Ask the blockers of an item once, and note it if they hold the item back. -/
def inquire (judge : Judge) (q : Nat) (s : Scheduler) (e : Entrant) : Scheduler :=
  match s.ask judge q ⟨q, e.item.id⟩ e.item.blockers with
  | (s', .held r) => s'.log (.itemBlocked e.item.id r)
  | (s', _) => s'

/-- Nothing happened on the way but that the blockers of pending items were asked, of each item once at the
most. -/
def AskedOnce (judge : Judge) (q : Nat) (s t : Scheduler) : Prop :=
  ∃ es : List Entrant, t = es.foldl (inquire judge q) s ∧ (∀ e ∈ es, e ∈ (s.queue q).pendingEntrants) ∧
    (es.map (·.item.id)).Nodup

/-- On the way items were assigned in this order, and between two assignments, before the first and after the
last of them nothing happened but that the blockers of pending items were asked, of each item once at the
most. -/
inductive Inquiring (judge : Judge) (q : Nat) : Scheduler → List Nat → Scheduler → Prop where
  | stop {s t : Scheduler} (h : AskedOnce judge q s t) : Inquiring judge q s [] t
  | next {s t u : Scheduler} {n : Node} {e : Entrant} {made : List Nat} (h : AskedOnce judge q s t)
      (hrest : Inquiring judge q (t.assign q n e) made u) : Inquiring judge q s (e.item.id :: made) u

/-- Asking changes the contacts and the journal at most. -/
theorem inquire_alike (judge : Judge) (q : Nat) (s : Scheduler) (e : Entrant) :
    Alike s (inquire judge q s e) := by
  have hasked := (ask_spec judge s q ⟨q, e.item.id⟩ e.item.blockers).1
  unfold inquire
  split
  case h_1 hask =>
    rw [hask] at hasked
    exact hasked.trans (.log _ _)
  case h_2 hask =>
    rw [hask] at hasked
    exact hasked

/-- Asking several times changes the contacts and the journal at most. -/
theorem inquiries_alike (judge : Judge) (q : Nat) (s : Scheduler) (es : List Entrant) :
    Alike s (es.foldl (inquire judge q) s) := by
  induction es generalizing s with
  | nil => exact .refl s
  | cons e es ih => exact (inquire_alike judge q s e).trans (ih _)

/-- An item whose answer is kept is not asked about, and otherwise its blockers are asked once and the answer is
kept unless they fail. -/
theorem heldBy_inquires (judge : Judge) (q : Nat) (s : Scheduler) (known : Answers) (e : Entrant) :
    (e.item.id ∈ known.map Prod.fst ∧ ∃ reason, s.heldBy judge q known e = (s, .ok (known, reason))) ∨
    (e.item.id ∉ known.map Prod.fst ∧ (s.heldBy judge q known e).1 = inquire judge q s e ∧
      ∀ known' reason, (s.heldBy judge q known e).2 = .ok (known', reason) →
        known' = (e.item.id, reason) :: known) := by
  simp only [heldBy]
  split
  case h_1 a hfind =>
    have hid : a.1 = e.item.id := by simpa using List.find?_some hfind
    exact .inl ⟨hid ▸ List.mem_map_of_mem (List.mem_of_find?_eq_some hfind), a.2, rfl⟩
  case h_2 hfind =>
    have hnew : e.item.id ∉ known.map Prod.fst := by
      intro hmem
      obtain ⟨a, ha, hid⟩ := List.mem_map.mp hmem
      exact List.find?_eq_none.mp hfind a ha (beq_iff_eq.mpr hid)
    refine .inr ⟨hnew, ?_⟩
    unfold inquire
    cases s.ask judge q ⟨q, e.item.id⟩ e.item.blockers with
    | mk s' v => cases v <;> simp +contextual [eq_comm]

/-- During the choice among items the blockers of those are asked whose answers are not kept, and unless they
fail their answers are kept then. -/
theorem select_inquires (judge : Judge) (q : Nat) (n : Node) (es : List Entrant) (known : Answers)
    (s : Scheduler) :
    ∃ asked : List Entrant, asked.Sublist es ∧ (∀ e ∈ asked, e.item.id ∉ known.map Prod.fst) ∧
      (s.select judge q n known es).1 = asked.foldl (inquire judge q) s ∧
      ∀ known' chosen, (s.select judge q n known es).2 = .ok (known', chosen) →
        (∀ i, i ∈ known.map Prod.fst ∨ i ∈ asked.map (·.item.id) → i ∈ known'.map Prod.fst) ∧
        ∀ e, chosen = some e → e ∈ es := by
  -- the answers that are kept grow by one for each item that is asked about, so they go along with the state
  induction es generalizing known s with
  | nil =>
      refine ⟨[], .slnil, by simp, rfl, fun known' chosen h => ?_⟩
      obtain ⟨rfl, rfl⟩ := Prod.mk.inj (Except.ok.inj h)
      simp
  | cons e es ih =>
      rcases heldBy_inquires judge q s known e with ⟨hmem, reason, heq⟩ | ⟨hnew, hstate, hkept⟩
      · simp only [select, heq]
        split
        case isTrue =>
          refine ⟨[], List.nil_sublist _, by simp, rfl, fun known' chosen h => ?_⟩
          obtain ⟨rfl, rfl⟩ := Prod.mk.inj (Except.ok.inj h)
          simp
        case isFalse =>
          obtain ⟨asked, hsub, hfresh, hstate, hok⟩ := ih known s
          refine ⟨asked, hsub.cons e, hfresh, hstate, fun known' chosen h => ?_⟩
          obtain ⟨hkeys, hchosen⟩ := hok known' chosen h
          exact ⟨hkeys, fun e' he' => List.mem_cons_of_mem _ (hchosen e' he')⟩
      · simp only [select]
        generalize s.heldBy judge q known e = r at hstate hkept ⊢
        obtain ⟨s', result⟩ := r
        obtain rfl : s' = _ := hstate
        cases result with
        | error f => exact ⟨[e], by simp, by simpa using hnew, rfl, by simp⟩
        | ok answer =>
            obtain ⟨known', reason⟩ := answer
            obtain rfl := hkept known' reason rfl
            dsimp only
            split
            case isTrue =>
              refine ⟨[e], by simp, by simpa using hnew, rfl, fun known' chosen h => ?_⟩
              obtain ⟨rfl, rfl⟩ := Prod.mk.inj (Except.ok.inj h)
              simp [or_comm]
            case isFalse =>
              obtain ⟨asked, hsub, hfresh, hstate, hok⟩ := ih ((e.item.id, reason) :: known) (inquire judge q s e)
              simp only [List.map_cons, List.mem_cons, not_or] at hfresh hok
              refine ⟨e :: asked, hsub.cons_cons e, ?_, hstate, fun known' chosen h => ?_⟩
              · exact List.forall_mem_cons.mpr ⟨hnew, fun e' he' => (hfresh e' he').2⟩
              · obtain ⟨hkeys, hchosen⟩ := hok known' chosen h
                refine ⟨fun i hi => hkeys i ?_, fun e' he' => List.mem_cons_of_mem _ (hchosen e' he')⟩
                simpa only [List.map_cons, List.mem_cons, or_assoc, or_left_comm] using hi

/-- A walk over nodes, from a state in which the answers of some items are kept since the last assignment. -/
theorem matchNodes_inquiring (hs : s.WellFormed) (nodes : List Node) (asked : List Entrant) (known : Answers)
    (hasked : ∀ e ∈ asked, e ∈ (s.queue q).pendingEntrants) (hdistinct : (asked.map (·.item.id)).Nodup)
    (hkept : ∀ i ∈ asked.map (·.item.id), i ∈ known.map Prod.fst) :
    Inquiring judge q s (matchNodes judge q nodes (asked.foldl (inquire judge q) s) known).made
      (matchNodes judge q nodes (asked.foldl (inquire judge q) s) known).state := by
  induction nodes generalizing s asked known with
  | nil => exact .stop ⟨asked, rfl, hasked, hdistinct⟩
  | cons n nodes ih =>
      simp only [matchNodes]
      split
      case isTrue => exact .stop ⟨asked, rfl, hasked, hdistinct⟩
      case isFalse =>
        have halike := inquiries_alike judge q s asked
        obtain ⟨new, hsub, hfresh, hstate, hok⟩ := select_inquires judge q n
          ((asked.foldl (inquire judge q) s).queue q).pendingEntrants known (asked.foldl (inquire judge q) s)
        rw [halike.queue] at hsub hstate hok ⊢
        -- nothing was forgotten since the last assignment, so nobody is asked about twice
        have hmore : ∀ e ∈ asked ++ new, e ∈ (s.queue q).pendingEntrants := fun e he =>
          (List.mem_append.mp he).elim (hasked e) (hsub.subset ·)
        have hnodup : ((asked ++ new).map (·.item.id)).Nodup := by
          have hincreasing := ((hs.queues q).pendingEntrants_increasing).sublist hsub
          rw [List.map_append, List.nodup_append]
          refine ⟨hdistinct, List.pairwise_map.mpr (hincreasing.imp Nat.ne_of_lt), ?_⟩
          rintro i hi j hj rfl
          obtain ⟨e, he, rfl⟩ := List.mem_map.mp hj
          exact hfresh e he (hkept _ hi)
        rw [← List.foldl_append] at hstate
        generalize (asked.foldl (inquire judge q) s).select judge q n known (s.queue q).pendingEntrants = r
          at hstate hok ⊢
        obtain ⟨s', result⟩ := r
        obtain rfl : s' = _ := hstate
        cases result with
        | error f => exact .stop ⟨_, rfl, hmore, hnodup⟩
        | ok answer =>
            obtain ⟨known', chosen⟩ := answer
            obtain ⟨hkeys, hchosen⟩ := hok known' chosen rfl
            cases chosen with
            | none =>
                refine ih hs (asked ++ new) known' hmore hnodup fun i hi => hkeys i ?_
                rw [List.map_append, List.mem_append] at hi
                exact hi.imp_left (hkept i)
            | some e =>
                -- the assignment makes the pass forget all answers
                have hpending := ((hs.queues q).mem_pendingEntrants.mp (hchosen e rfl)).2
                have hafter := inquiries_alike judge q s (asked ++ new)
                have hassigned := (hs.alike hafter).assign n (hafter.queue q ▸ hpending)
                exact .next ⟨_, rfl, hmore, hnodup⟩ (ih hassigned [] [] (by simp) .nil (by simp))

/-- Within a pass the blockers of an item are asked at most once between two assignments. -/
theorem matchPass_inquiring (hs : s.WellFormed) (judge : Judge) (q k : Nat) :
    Inquiring judge q (s.noted q k) (matchPass judge q k s).made (matchPass judge q k s).state :=
  matchNodes_inquiring (hs.alike (noted_alike q k s)) s.pool.idle [] [] (by simp) .nil (by simp)

/-- What matching assigned is announced, and then a fault that ended it is the fault of the operation. -/
theorem maintain_eq (judge : Judge) (q : Nat) (s : Scheduler) :
    s.maintain judge q = (announce q (matchItems judge q s).made (matchItems judge q s).state).andThen fun t _ =>
      .done t ((matchItems judge q s).fault.elim (.ok (matchItems judge q s).made) .error) := by
  refine congrArg (announce q _ _).andThen (funext fun t => funext fun _ => ?_)
  split
  case h_1 hfault => rw [hfault, Option.elim_some]
  case h_2 hfault => rw [hfault, Option.elim_none]

/-- Matching the items of a queue makes the assignments of plain matching in the same order and leaves the
same pool and queues behind, if outside parties judge by these alone; then the assignments are announced, and
a fault that ended plain matching is the fault of the operation. There is one more pass than there are pending
items at the most, and within each pass the blockers of an item are asked at most once between two
assignments. Plain matching has no other outcome. -/
theorem maintain_plainPasses (hs : s.WellFormed) (hj : judge.Impartial) (q : Nat) :
    let m := matchItems judge q s
    s.maintain judge q =
      (announce q m.made m.state).andThen (fun t _ => .done t (m.fault.elim (.ok m.made) .error)) ∧
    ∃ count ≤ (s.queue q).pending.length + 1, ∃ t,
      Passes judge q 1 count s m ∧ (∀ k u, u.WellFormed →
        Inquiring judge q (u.noted q k) (matchPass judge q k u).made (matchPass judge q k u).state) ∧
      PlainPasses judge q count s m.made t m.fault ∧ Alike t m.state ∧
      ∀ count' made' t' fault', PlainPasses judge q count' s made' t' fault' →
        count = count' ∧ m.made = made' ∧ t = t' ∧ m.fault = fault' := by
  intro m
  refine ⟨maintain_eq judge q s, ?_⟩
  obtain ⟨count, hcount, hpasses⟩ := matchItems_passes hs judge q
  obtain ⟨t, hplain, ht⟩ := hpasses.plainPasses hj hs (.refl s)
  exact ⟨count, hcount, t, hpasses, fun k u hu => matchPass_inquiring hu judge q k, hplain, ht,
    fun _ _ _ _ h => hplain.unique hs h⟩

/-- Two items wait for a party that lets an item go while nothing is building. Of the two idle nodes the first
is given the first item, and the second nothing, although the party let the second item go when the pass
began. -/
theorem maintain_plainPasses_one_at_a_time :
    let closed : Judge := fun _ _ _ => .held "closed"
    let judge : Judge := fun _ s _ => if (s.queue 0).building.isEmpty then .free else .held "busy"
    let moves : List Move := [.ask closed (.openQueue []), .ask closed (.register "a" (.parts [])),
      .ask closed (.register "b" (.parts [])), .ask closed (.submit 0 (.plain .none) "t" [.party 0]),
      .ask closed (.submit 0 (.plain .none) "u" [.party 0])]
    let s := (Config.run moves).state
    (s.queue 0).pending = [1, 2] ∧ s.pool.idle.map Node.name = ["a", "b"] ∧ s.WellFormed ∧ judge.Impartial ∧
      ∃ count ≤ 3, ∃ t, PlainPasses judge 0 count s [1] t none ∧ (t.queue 0).pending = [2] := by
  intro closed judge moves s
  have hs : s.WellFormed := Config.run_wellFormed moves
  have hj : judge.Impartial := by
    intro p s t item h
    simp only [judge, h.queue]
  have hpending : (s.queue 0).pending = [1, 2] := by decide
  have hmade : (matchItems judge 0 s).made = [1] := by decide
  have hfault : (matchItems judge 0 s).fault = none := by decide
  have hleft : ((matchItems judge 0 s).state.queue 0).pending = [2] := by decide
  have hidle : s.pool.idle.map Node.name = ["a", "b"] := by decide
  clear_value s judge
  obtain ⟨-, count, hcount, t, -, -, hplain, ht, -⟩ := maintain_plainPasses hs hj 0
  rw [hpending] at hcount
  rw [hmade, hfault] at hplain
  exact ⟨hpending, hidle, hs, hj, count, hcount, t, hplain, ht.queue 0 ▸ hleft⟩

end Scheduler

end LabelScheduler
