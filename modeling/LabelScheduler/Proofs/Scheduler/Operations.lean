import LabelScheduler.Proofs.Scheduler.Contract
import LabelScheduler.Proofs.Scheduler.Matching

/-!
# What operations do

An operation changes the scheduler by effects alone. Most operations end with matching, and those that do
not change things only mildly, so that no item can go afterwards that could not go before. A state of rest
is what matching brings and mild changes keep. Every operation ends at rest if it begins at rest or ends with
matching, and parties are told news at rest, or ahead of a queue that matches next.
-/

namespace LabelScheduler

open Scheduler

namespace Dialogue

variable {α β : Type} {k : Contract} {s : Scheduler} {d : Dialogue α}

/-- Giving another result does not change what an operation does. -/
theorem Keeps.returning {rest : Scheduler → Prop} (h : d.Keeps k (fun t _ => rest t) s)
    (result : Scheduler → β) : (d.returning result).Keeps k (fun t _ => rest t) s :=
  h.andThen (fun _ _ _ hrest => ⟨.refl, hrest⟩) fun _ _ _ hrest => hrest

end Dialogue

namespace Scheduler

variable {judge : Judge} {judges : Set Judge} {q : Nat} {s t : Scheduler}

/-- Noting that a listener is told of an assignment changes nothing else. -/
theorem recordAssigned_alike (s : Scheduler) (p : Party) (item : ItemRef) :
    Alike s (s.recordAssigned p item) := by
  unfold recordAssigned
  split
  · split <;> exact ⟨rfl, rfl⟩
  · exact .refl s

/-- Noting that a listener failed changes nothing else. -/
theorem logFailure_alike (s : Scheduler) (item : ItemRef) (f : Fault) : Alike s (s.logFailure item f) := by
  unfold logFailure
  split <;> exact ⟨rfl, rfl⟩

/-- Keeping the promise of an item that was assigned notes the assignment and settles the promise; for other
items nothing happens. -/
theorem keepPromise_cases (q : Nat) (s : Scheduler) (id : Nat) :
    keepPromise q s id = s ∨ ∃ e a, s.get? ⟨q, id⟩ = some e ∧ e.assignment = some a ∧
      keepPromise q s id =
        (s.log (.itemAssigned id e.item.task.text a.node a.run.id)).settle ⟨q, id⟩ (.kept a) := by
  unfold keepPromise
  split
  · rename_i e he
    split
    · rename_i a ha
      exact .inr ⟨e, a, he, ha, rfl⟩
    · exact .inl rfl
  · exact .inl rfl

/-- What is preserved when an assignment is noted and when a promise is settled is preserved by keeping several
promises. -/
theorem keepPromises_preserve {P : Scheduler → Prop}
    (hnote : ∀ {s id task node run}, P s → P (s.log (.itemAssigned id task node run)))
    (hkeep : ∀ {s id e a}, s.get? ⟨q, id⟩ = some e → e.assignment = some a → P s →
      P (s.settle ⟨q, id⟩ (.kept a)))
    (made : List Nat) (hs : P s) : P (made.foldl (keepPromise q) s) := by
  induction made generalizing s with
  | nil => exact hs
  | cons id made ih =>
      apply ih
      rcases keepPromise_cases q s id with hsame | ⟨e, a, he, ha, hkept⟩
      · rwa [hsame]
      · rw [hkept]
        exact hkeep he ha (hnote hs)

/-- Keeping several promises is a matter of effects. -/
theorem keepPromises_effects (q : Nat) (made : List Nat) (s : Scheduler) :
    Effects judges s (made.foldl (keepPromise q) s) :=
  keepPromises_preserve (fun hs => hs.tail (.note (.log _ _))) (fun he ha hs => hs.tail (.keep he ha)) made .refl

/-- The state when matching is over and its promises are kept, before any listener is told. -/
def published (judge : Judge) (q : Nat) (s : Scheduler) : Scheduler :=
  (matchItems judge q s).made.foldl (keepPromise q) (matchItems judge q s).state

/-- Effects lead there, if the judge is heard. -/
theorem published_effects (hs : s.WellFormed) (hjudge : judge ∈ judges) (q : Nat) :
    Effects judges s (s.published judge q) :=
  ((matchItems_assigns hs judge q).effects hjudge).trans (keepPromises_effects _ _ _)

/-- Nothing is taken back on the way. -/
theorem Grows.published (hs : s.WellFormed) (judge : Judge) (q : Nat) : Grows s (s.published judge q) :=
  .effects (published_effects hs (Set.mem_univ judge) q)

section Maintain

variable {k : Contract} {rest : Scheduler → Prop}

/-- Telling listeners of assignments keeps the contract, and it preserves what the listeners preserve. -/
theorem tellListeners_keeps (hquiet : ∀ {s t}, Alike s t → rest s → rest t)
    (hoffer : ∀ {t p item}, rest t → k.offer t (.assigned p item))
    (haccept : ∀ {t p item u f}, rest t → k.accept t (.assigned p item) u f → rest u)
    (pairs : List (Nat × Party)) (first : Option Fault) (hs : rest s) :
    (tellListeners q pairs first s).Keeps k (fun t _ => rest t) s := by
  induction pairs generalizing first s with
  | nil => cases first <;> exact ⟨.refl, hs⟩
  | cons pair pairs ih =>
      obtain ⟨id, p⟩ := pair
      have htold := recordAssigned_alike s p ⟨q, id⟩
      have hrest := hquiet htold hs
      refine ⟨.single (.note htold), hoffer hrest, fun u f _ hf => ?_⟩
      have hu := haccept hrest hf
      cases f with
      | none => exact ih first hu
      | some f =>
          have hfailure := logFailure_alike u ⟨q, id⟩ f
          exact .head (.single (.note hfailure)) (ih _ (hquiet hfailure hu))

/-- Matching and telling the listeners keeps the contract if matching ends in a state of rest. -/
theorem maintain_keeps (hquiet : ∀ {s t}, Alike s t → rest s → rest t)
    (hoffer : ∀ {t p item}, rest t → k.offer t (.assigned p item))
    (haccept : ∀ {t p item u f}, rest t → k.accept t (.assigned p item) u f → rest u)
    (hs : s.WellFormed) (hjudge : judge ∈ k.judges) (hrest : rest (s.published judge q)) :
    (maintain judge q s).Keeps k (fun t _ => rest t) s := by
  apply Dialogue.Keeps.head (published_effects hs hjudge q)
  refine (tellListeners_keeps hquiet hoffer haccept _ none hrest).andThen ?_ fun _ _ _ ht => ht
  intro t _ _ ht
  cases (matchItems judge q s).fault with
  | none => exact ⟨.refl, ht⟩
  | some f => exact ⟨.refl, ht⟩

end Maintain

end Scheduler

/-- The news is of an available node, and there is a queue behind the party among those who hear of it. -/
def News.isAhead (t : Scheduler) : News → Prop
  | .assigned _ _ => False
  | .available p _ => ∃ before q after,
      t.pool.subscribers = before ++ .queue q :: after ∧ .party p ∈ before

/-- Parties are told news at rest, or ahead of a queue that will bring rest; they leave things at rest if
they find them so, and fail only then. -/
def Contract.restoring (judges : Set Judge) (rest : Scheduler → Prop) : Contract where
  judges := judges
  offer t news := rest t ∨ news.isAhead t
  accept t _ u f := (rest t → rest u) ∧ (f ≠ none → rest u)

namespace Scheduler

variable {judge : Judge} {judges : Set Judge} {q : Nat} {s t : Scheduler} {rest : Scheduler → Prop}

/-- Changes after which no item can go that could not go before. -/
inductive Mild (s : Scheduler) : Scheduler → Prop where
  | note {t : Scheduler} (h : Alike s t) : Mild s t
  | read (r : Registry) : Mild s (s.withPool fun p => { p with registry := r })
  | leave (name : String) : Mild s (s.withPool (·.drop name))
  | occupy {n : Node} {name : String} (h : s.pool.find? name = some n) :
      Mild s (s.withPool (·.update name fun n => { n with state := .busy }))
  | start {q : Nat} {item : ItemRef} (h : s.isBuildingIn q item = true) :
      Mild s (s.withQueue q (·.start item.id))
  | openQueue (listeners : List Party) : Mild s (s.openQueue listeners)
  | listen (q : Nat) (p : Party) : Mild s (s.addListener q p)
  | subscribe (p : Party) : Mild s (s.addSubscriber p)
  | watch (p : Party) (item : ItemRef) : Mild s (s.watch p item)

/-- Any number of mild changes. -/
abbrev Milds : Scheduler → Scheduler → Prop := Relation.ReflTransGen Mild

/-- A mild change is an effect. -/
theorem Mild.effect (h : Mild s t) : Effect judges s t := by
  cases h with
  | note h => exact .note h
  | read r => exact .read r
  | leave name => exact .leave name
  | occupy h => exact .turn .busy h nofun
  | start h => exact .start h
  | openQueue listeners => exact .openQueue listeners
  | listen q p => exact .listen q p
  | subscribe p => exact .subscribe p
  | watch p item => exact .watch p item

/-- Mild changes are effects. -/
theorem Milds.effects (h : Milds s t) : Effects judges s t :=
  Relation.ReflTransGen.mono (fun _ _ => Mild.effect) _ _ h

/-- A mild change keeps what is never taken back. -/
theorem Grows.mild (h : Mild s t) : Grows s t :=
  have heffect : Effect ∅ s t := h.effect
  .effect heffect

/-- Mild changes leave a well-formed state behind. -/
theorem WellFormed.milds (hs : s.WellFormed) (h : Milds s t) : t.WellFormed :=
  have heffects : Effects ∅ s t := h.effects
  hs.effects heffects

/-- Putting a registry in place is a matter of mild changes. -/
theorem withRegistry_milds (s : Scheduler) (r : Registry) : Milds s (s.withRegistry r) :=
  .head (.note (.logAll _ _)) (.single (.read r))

/-- Removing a node is a mild change. -/
theorem remove_milds (s : Scheduler) (name : String) : Milds s (s.remove name).1 := by
  unfold remove
  split
  case h_1 => exact .refl
  case h_2 => exact .head (.leave name) (.single (.note (.logAll _ _)))

/-- Reporting an item running is a mild change. -/
theorem started_milds (s : Scheduler) (q : Nat) (item : ItemRef) : Milds s (s.started q item).1 := by
  unfold started
  split
  case isTrue hbuilding => exact .single (.start hbuilding)
  case isFalse => exact .refl

/-- Reading the label of a submission changes nothing unless a text is read. -/
theorem readLabel_cases (s : Scheduler) (p : Part) :
    (s.readLabel p).1 = s ∨ ∃ text, (s.readLabel p).1 = (s.parse text).1 := by
  unfold readLabel
  split
  case h_1 => exact .inl rfl
  case h_2 text =>
    split
    case isTrue => exact .inl rfl
    case isFalse => exact .inr ⟨text, rfl⟩
  case h_3 => exact .inl rfl

/-- Reading the label of a submission is a matter of mild changes. -/
theorem readLabel_milds (s : Scheduler) (p : Part) : Milds s (s.readLabel p).1 := by
  rcases readLabel_cases s p with h | ⟨text, h⟩
  · rw [h]
  · exact h ▸ .head (.note (.logAll _ _)) (.single (.read _))

/-- An item that is withdrawn while it is pending is cancelled. -/
theorem get?_of_withdraw {item : ItemRef} (h : s.isPendingIn q item = true) :
    ∃ e, (s.withQueue q (·.withdraw item.id)).get? item = some e ∧ e.state = .cancelled := by
  obtain ⟨rfl, hmem⟩ := mem_of_isPendingIn h
  simp only [isPendingIn, Bool.and_eq_true, Option.any_eq_true] at h
  obtain ⟨e, he, -⟩ := h.2
  refine ⟨{ e with state := .cancelled }, ?_, rfl⟩
  rw [get?, queue_withQueue_self (lt_of_mem (.inl hmem))]
  exact Queue.get?_update_self ((Queue.get?_congr rfl _).trans he) _

/-- Matching brings rest, mild changes keep it, and there is rest as long as no queue is open. -/
structure Restored (rest : Scheduler → Prop) : Prop where
  closed : ∀ {s : Scheduler}, s.queues = [] → rest s
  alike : ∀ {s t : Scheduler}, Alike s t → rest s → rest t
  mild : ∀ {s t : Scheduler}, s.WellFormed → Mild s t → rest s → rest t
  matched : ∀ {s : Scheduler} {q : Nat} (judge : Judge), s.WellFormed → q < s.queues.length →
    rest (s.published judge q)

/-- A dialogue that ends at rest, whatever state it begins in, or is a mild change at once; these judges are
heard. -/
def Restores {α : Type} (judges : Set Judge) (rest : Scheduler → Prop) (s : Scheduler) (d : Dialogue α) : Prop :=
  d.Keeps (.restoring judges rest) (fun t _ => rest t) s ∨ ∃ t result, d = .done t result ∧ Milds s t

namespace Restored

/-- Every state may count as one of rest. -/
theorem everywhere : Restored fun _ => True :=
  ⟨fun _ => trivial, fun _ _ => trivial, fun _ _ _ => trivial, fun _ _ _ => trivial⟩

/-- Mild changes keep rest. -/
theorem milds (h : Restored rest) (hs : s.WellFormed) (hst : Milds s t) (hrest : rest s) : rest t := by
  induction hst with
  | refl => exact hrest
  | tail hsu hut ih => exact h.mild (hs.milds hsu) hut ih

/-- Matching keeps the contract and ends at rest. -/
theorem maintain (h : Restored rest) (hjudge : judge ∈ judges) (hs : s.WellFormed) (hq : q < s.queues.length) :
    (s.maintain judge q).Keeps (.restoring judges rest) (fun t _ => rest t) s :=
  maintain_keeps h.alike (.inl ·) (fun ht haccept => haccept.1 ht) hs hjudge (h.matched judge hs hq)

/-- Going through those who hear of an available node keeps the contract, and it ends at rest if it begins
at rest or a queue is among them. -/
theorem notify (h : Restored rest) (hjudge : judge ∈ judges) {node : Node} {subs : List Subscriber}
    (hs : s.WellFormed) (hsubs : subs <:+: s.pool.subscribers) (hrest : rest s ∨ ∃ q, .queue q ∈ subs) :
    (s.notify judge node subs).Keeps (.restoring judges rest) (fun t _ => rest t) s := by
  induction subs generalizing s with
  | nil => exact ⟨.refl, hrest.resolve_right fun ⟨_, hq⟩ => List.not_mem_nil hq⟩
  | cons sub subs ih =>
      have hlater {t : Scheduler} (ht : Effects judges s t) : subs <:+: t.pool.subscribers :=
        (List.suffix_cons _ _).isInfix.trans (hsubs.trans (Grows.effects ht).subscribers.isInfix)
      cases sub with
      | queue q =>
          have hq : q < s.queues.length := (hs.subscribed q).mp (hsubs.subset List.mem_cons_self)
          refine (h.maintain hjudge hs hq).andThen (fun t _ ht hrest => ?_) fun _ _ _ hrest => hrest
          exact ih (hs.effects ht) (hlater ht) (.inl hrest)
      | party p =>
          have htold : Alike s (s.record (.available p ((s.pool.registered? node.serial).getD node).name
            ((s.pool.registered? node.serial).getD node).state)) := ⟨rfl, rfl⟩
          have hbehind : rest s ∨ ∃ q, .queue q ∈ subs :=
            hrest.imp_right fun ⟨q, hq⟩ => ⟨q, (List.mem_cons.mp hq).resolve_left nofun⟩
          refine ⟨.single (.note htold), ?_, fun u f hu hf => ?_⟩
          · refine hbehind.imp (h.alike htold) fun ⟨q, hq⟩ => ?_
            obtain ⟨front, back, rfl⟩ := List.append_of_mem hq
            obtain ⟨before, after, heq⟩ := hsubs
            exact ⟨before ++ .party p :: front, q, back ++ after, by simp [← heq, record], by simp⟩
          · cases f with
            | some f => exact ⟨.refl, hf.2 nofun⟩
            | none =>
                have hsu : Effects judges s u := .head (.note htold) hu
                exact ih (hs.effects hsu) (hlater hsu) (hbehind.imp_left fun hr => hf.1 (h.alike htold hr))

/-- Making a node available to all who hear of it ends at rest: some queue hears of it, or none is open. -/
theorem notifyAll (h : Restored rest) (hjudge : judge ∈ judges) (hs : s.WellFormed) (node : Node) :
    (s.notify judge node s.pool.subscribers).Keeps (.restoring judges rest) (fun t _ => rest t) s := by
  apply h.notify hjudge hs List.infix_rfl
  rcases Nat.eq_zero_or_pos s.queues.length with hnone | hopen
  · exact .inl (h.closed (List.length_eq_zero_iff.mp hnone))
  · exact .inr ⟨0, (hs.subscribed 0).mpr hopen⟩

/-- Registering a node makes it available, unless the labels or the name are refused. -/
theorem register (h : Restored rest) (hjudge : judge ∈ judges) (hs : s.WellFormed) (name : String)
    (labels : NodeLabels) : Restores judges rest s (s.register judge name labels) := by
  unfold Scheduler.register
  split
  case h_1 => exact .inr ⟨_, _, rfl, withRegistry_milds _ _⟩
  case h_2 r atoms _ =>
    have hread := withRegistry_milds s r
    simp only
    split
    case h_1 => exact .inr ⟨_, _, rfl, hread⟩
    case h_2 hname =>
      have hjoin : Effects judges s (((s.withRegistry r).withPool (·.add name atoms)).log (.nodeRegistered name
          (Node.fresh name atoms (s.withRegistry r).pool.enrolled).labelsText)) :=
        hread.effects.trans (.head (.join atoms hname) (.single (.note (.log _ _))))
      exact .inl (.head hjoin ((h.notifyAll hjudge (hs.effects hjoin) _).returning _))

/-- Taking a node is a mild change, and releasing it makes it available. -/
theorem setState (h : Restored rest) (hjudge : judge ∈ judges) (hs : s.WellFormed) (name : String)
    (state : NodeState) : Restores judges rest s (s.setState judge name state) := by
  unfold Scheduler.setState
  split
  case h_1 => exact .inr ⟨_, _, rfl, .refl⟩
  case h_2 n hfind =>
    cases state with
    | busy => exact .inr ⟨_, _, rfl, .head (.occupy hfind) (.single (.note (.log _ _)))⟩
    | idle =>
        cases hholds : n.holds with
        | some i => exact .inr ⟨_, _, rfl, .refl⟩
        | none =>
            have hturn : Effects judges s ((s.withPool (·.update name fun n => { n with state := .idle })).log
                (.nodeStateChanged name n.state.name NodeState.idle.name)) :=
              .head (.turn .idle hfind fun _ => hholds) (.single (.note (.log _ _)))
            exact .inl (.head hturn (h.notifyAll hjudge (hs.effects hturn) _))

/-- Submitting an item adds it and matches, unless the label or the task is refused. -/
theorem submit (h : Restored rest) (hjudge : judge ∈ judges) (hs : s.WellFormed) (hq : q < s.queues.length)
    (label : Part) (task : String) (blockers : List Blocker) :
    Restores judges rest s (s.submit judge q label task blockers) := by
  have hread := readLabel_milds s label
  unfold Scheduler.submit
  split
  case h_1 hlabel =>
    rw [hlabel] at hread
    exact .inr ⟨_, _, rfl, hread⟩
  case h_2 s₁ e hlabel =>
    rw [hlabel] at hread
    simp only
    split
    case h_1 => exact .inr ⟨_, _, rfl, hread⟩
    case h_2 name _ =>
      have henter : Effects judges s ((s₁.withQueue q (·.add ⟨(s₁.queue q).nextId, name, e, blockers⟩)).log
          (.itemSubmitted (s₁.queue q).nextId name.text
            (Item.labelName ⟨(s₁.queue q).nextId, name, e, blockers⟩))) :=
        hread.effects.trans (.head (.enter rfl) (.single (.note (.log _ _))))
      have hopen := Nat.lt_of_lt_of_le hq (Grows.effects henter).queues
      exact .inl (.head henter ((h.maintain hjudge (hs.effects henter) hopen).returning _))

/-- Cancelling an item takes it out and matches, unless it is not pending. -/
theorem cancel (h : Restored rest) (hjudge : judge ∈ judges) (hs : s.WellFormed) (item : ItemRef) :
    Restores judges rest s (s.cancel judge q item) := by
  unfold Scheduler.cancel
  split
  case isFalse => exact .inr ⟨_, _, rfl, .single (.note (.log _ _))⟩
  case isTrue hpending =>
    have hwithdraw : Effects judges s ((s.withQueue q (·.withdraw item.id)).log (.itemCancelled item.id true)) :=
      .head (.withdraw hpending) (.single (.note (.log _ _)))
    obtain ⟨e, he, hstate⟩ := get?_of_withdraw hpending
    have hrenounce := hwithdraw.trans (.single (.renounce he hstate))
    have hq := lt_of_mem (.inl (mem_of_isPendingIn hpending).2)
    have hopen := Nat.lt_of_lt_of_le hq (Grows.effects hrenounce).queues
    exact .inl (.head hrenounce ((h.maintain hjudge (hs.effects hrenounce) hopen).returning _))

/-- Completing an item frees its node and matches, unless it is not building. -/
theorem completed (h : Restored rest) (hjudge : judge ∈ judges) (hs : s.WellFormed) (item : ItemRef) :
    Restores judges rest s (s.completed judge q item) := by
  unfold Scheduler.completed
  split
  case isFalse => exact .inr ⟨_, _, rfl, .refl⟩
  case isTrue hbuilding =>
    have hcomplete : Effects judges s ((s.conclude q item).log
        (.itemCompleted item.id ((s.get? item).bind Entrant.node))) :=
      .head (.complete hbuilding) (.single (.note (.log _ _)))
    have hq := lt_of_mem (.inr (mem_of_isBuildingIn hbuilding).2)
    have hopen := Nat.lt_of_lt_of_le hq (Grows.effects hcomplete).queues
    exact .inl (.head hcomplete ((h.maintain hjudge (hs.effects hcomplete) hopen).returning _))

end Restored

end Scheduler

end LabelScheduler
