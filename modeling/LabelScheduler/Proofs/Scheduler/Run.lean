import LabelScheduler.Proofs.Scheduler.Operations

/-!
# Runs

A run is any sequence of moves: somebody asks for an operation, or the party that was told news last comes
back from it, possibly with a fault. Operations that are asked for while a party has its say are nested in
the one that waits for the party, so a configuration is a state with the operations that wait, innermost
first. Policies may answer differently in every operation. Whatever the moves, all states of a run are
connected by effects in which the judges of the operations that were asked for are heard.
-/

namespace LabelScheduler

open Scheduler

/-- What can be asked for. -/
inductive Request where
  | register (name : String) (labels : NodeLabels)
  | remove (name : String)
  | setState (name : String) (state : NodeState)
  | submit (q : Nat) (label : Part) (task : String) (blockers : List Blocker)
  | cancel (q : Nat) (item : ItemRef)
  | started (q : Nat) (item : ItemRef)
  | completed (q : Nat) (item : ItemRef)
  | maintain (q : Nat)
  | openQueue (listeners : List Party)
  | addListener (q : Nat) (p : Party)
  | addSubscriber (p : Party)
  | watch (p : Party) (item : ItemRef)

/-- What an operation gives. -/
inductive Answer where
  | nothing
  | node (n : Node)
  | item (i : ItemRef)
  | flag (b : Bool)
  | items (ids : List Nat)

/-- An operation in which nobody else has a say. -/
def Dialogue.alone {α : Type} (r : Scheduler × Except Fault α) : Dialogue α := .done r.1 r.2

/-- Change the result of an operation. -/
def Dialogue.map {α β : Type} (f : α → β) (d : Dialogue α) : Dialogue β :=
  d.andThen fun s a => .done s (.ok (f a))

namespace Request

/-- The queue that an operation is asked of. -/
def queue? : Request → Option Nat
  | .submit q _ _ _ | .cancel q _ | .started q _ | .completed q _ | .maintain q | .addListener q _ => some q
  | _ => none

/-- The queue that the operation is asked of is open. -/
def isOpenIn (s : Scheduler) (r : Request) : Bool := r.queue?.all fun q => q < s.queues.length

/-- Begin an operation. -/
def perform (judge : Judge) (s : Scheduler) : Request → Dialogue Answer
  | .register name labels => (s.register judge name labels).map .node
  | .remove name => (Dialogue.alone (s.remove name)).map .node
  | .setState name state => (s.setState judge name state).map fun _ => .nothing
  | .submit q label task blockers => (s.submit judge q label task blockers).map .item
  | .cancel q item => (s.cancel judge q item).map .flag
  | .started q item => (Dialogue.alone (s.started q item)).map fun _ => .nothing
  | .completed q item => (s.completed judge q item).map fun _ => .nothing
  | .maintain q => (s.maintain judge q).map .items
  | .openQueue listeners => .done (s.openQueue listeners) (.ok .nothing)
  | .addListener q p => .done (s.addListener q p) (.ok .nothing)
  | .addSubscriber p => .done (s.addSubscriber p) (.ok .nothing)
  | .watch p item => .done (s.watch p item) (.ok .nothing)

end Request

/-- An operation that waits for a party: the state in which the party was told, the news, and how to go on
when it comes back. -/
structure Waiting where
  told : Scheduler
  news : News
  resume : Scheduler → Option Fault → Dialogue Answer

/-- A state with the operations that wait, innermost first, and the result of the operation that has just
ended, if one has. -/
structure Config where
  state : Scheduler
  waiting : List Waiting
  returned : Option (Except Fault Answer)

/-- What may happen next: an operation is asked for, with what the policies will answer in it, or the party
that was told last comes back. -/
inductive Move where
  | ask (judge : Judge) (r : Request)
  | answer (f : Option Fault)

namespace Config

/-- Nothing has happened. -/
def initial : Config := ⟨.empty, [], none⟩

/-- Go on with an operation while others wait. -/
def enter (waiting : List Waiting) : Dialogue Answer → Config
  | .done s result => ⟨s, waiting, some result⟩
  | .tell s news resume => ⟨s, ⟨s, news, resume⟩ :: waiting, none⟩

/-- Make a move; one that is not possible changes nothing. -/
def take (c : Config) : Move → Config
  | .ask judge r => if r.isOpenIn c.state then enter c.waiting (r.perform judge c.state) else c
  | .answer f =>
    match c.waiting with
    | [] => c
    | w :: ws => enter ws (w.resume c.state f)

/-- Make several moves. -/
def run (moves : List Move) : Config := moves.foldl take initial

/-- The judges who are heard in a run: those of the operations that are asked for. -/
def heard (moves : List Move) : Set Judge := {judge | ∃ r, .ask judge r ∈ moves}

end Config

namespace Dialogue

variable {α β : Type} {k : Contract} {s : Scheduler} {d : Dialogue α} {judges : Set Judge}
  {rest : Scheduler → Prop}

/-- Changing the result of an operation does not change what it does. -/
theorem Keeps.map (h : d.Keeps k (fun t _ => rest t) s) (f : α → β) :
    (d.map f).Keeps k (fun t _ => rest t) s :=
  h.andThen (fun _ _ _ hrest => ⟨.refl, hrest⟩) fun _ _ _ hrest => hrest

/-- An operation ends at rest, or is a mild change, whatever is made of its result. -/
theorem map_restores (h : Restores judges rest s d) (f : α → β) : Restores judges rest s (d.map f) := by
  rcases h with h | ⟨t, result, rfl, h⟩
  · exact .inl (h.map f)
  · cases result with
    | ok a => exact .inr ⟨t, .ok (f a), rfl, h⟩
    | error fault => exact .inr ⟨t, .error fault, rfl, h⟩

/-- An operation in which nobody else has a say is a mild change if its state says so. -/
theorem alone_restores {r : Scheduler × Except Fault α} (h : Milds s r.1) :
    Restores judges rest s (alone r) :=
  .inr ⟨r.1, r.2, rfl, h⟩

end Dialogue

section Run

variable {judges : Set Judge} {rest : Scheduler → Prop} {s t : Scheduler} {w : Waiting} {c : Config}

/-- Whatever is asked for ends at rest or is a mild change. -/
theorem Request.perform_restores (h : Restored rest) (hs : s.WellFormed) {judge : Judge}
    (hjudge : judge ∈ judges) {r : Request} (hr : r.isOpenIn s = true) :
    Restores judges rest s (r.perform judge s) := by
  cases r with
  | register name labels => exact Dialogue.map_restores (h.register hjudge hs name labels) _
  | remove name => exact Dialogue.map_restores (Dialogue.alone_restores (remove_milds s name)) _
  | setState name state => exact Dialogue.map_restores (h.setState hjudge hs name state) _
  | submit q label task blockers =>
      have hq : q < s.queues.length := by simpa [isOpenIn, queue?] using hr
      exact Dialogue.map_restores (h.submit hjudge hs hq label task blockers) _
  | cancel q item => exact Dialogue.map_restores (h.cancel hjudge hs item) _
  | started q item => exact Dialogue.map_restores (Dialogue.alone_restores (started_milds s q item)) _
  | completed q item => exact Dialogue.map_restores (h.completed hjudge hs item) _
  | maintain q => exact .inl ((h.maintain hjudge hs (by simpa [isOpenIn, queue?] using hr)).map _)
  | openQueue listeners => exact .inr ⟨_, _, rfl, .single (.openQueue listeners)⟩
  | addListener q p => exact .inr ⟨_, _, rfl, .single (.listen q p)⟩
  | addSubscriber p => exact .inr ⟨_, _, rfl, .single (.subscribe p)⟩
  | watch p item => exact .inr ⟨_, _, rfl, .single (.watch p item)⟩

/-- What is known of an operation that waits, in the present state: effects have led here since the party was
told, it was told at rest or ahead of a queue, and the operation goes on to end at rest. -/
structure Waiting.Bound (judges : Set Judge) (rest : Scheduler → Prop) (s : Scheduler) (w : Waiting) : Prop where
  since : Effects judges w.told s
  offered : rest w.told ∨ w.news.isAhead w.told
  resumes : ∀ u f, Effects judges w.told u → (Contract.restoring judges rest).accept w.told w.news u f →
    (w.resume u f).Keeps (.restoring judges rest) (fun t _ => rest t) u

/-- What is known of a configuration that came from the state `s`: its state is well formed and effects lead
there, the waiting operations are bound, and there is rest unless the innermost of them told its news without
rest. -/
structure Config.Bound (judges : Set Judge) (rest : Scheduler → Prop) (s : Scheduler) (c : Config) : Prop where
  wellFormed : c.state.WellFormed
  reached : Effects judges s c.state
  held : ∀ w ∈ c.waiting, w.Bound judges rest c.state
  calm : (∀ w ∈ c.waiting.head?, rest w.told) → rest c.state

/-- What is known of a waiting operation stays known while effects happen. -/
theorem Waiting.Bound.later (h : w.Bound judges rest s) (hst : Effects judges s t) : w.Bound judges rest t :=
  ⟨h.since.trans hst, h.offered, h.resumes⟩

/-- News ahead of a queue is told to parties that have subscribed. -/
theorem Waiting.Bound.subscribed (h : w.Bound judges rest s) (hahead : w.news.isAhead w.told) :
    ∃ p, .party p ∈ s.pool.subscribers := by
  have hgrows := (Grows.effects h.since).subscribers
  cases hnews : w.news with
  | assigned p item =>
      rw [hnews] at hahead
      exact hahead.elim
  | available p n =>
      rw [hnews] at hahead
      obtain ⟨before, q, after, htold, hp⟩ := hahead
      refine ⟨p, hgrows.subset ?_⟩
      rw [htold]
      exact List.mem_append_left _ hp

namespace Config

/-- Before anything has happened there is rest. -/
theorem Bound.initial (h : Restored rest) : Config.initial.Bound judges rest .empty :=
  ⟨.empty, .refl, fun _ hw => absurd hw List.not_mem_nil, fun _ => h.closed rfl⟩

/-- A configuration may be looked at as where things begin. -/
theorem Bound.again (hc : c.Bound judges rest s) : c.Bound judges rest c.state :=
  ⟨hc.wellFormed, .refl, hc.held, hc.calm⟩

/-- Going on with an operation that keeps the contract. -/
theorem Bound.enter {waiting : List Waiting} {d : Dialogue Answer} (ht : t.WellFormed) (hst : Effects judges s t)
    (hheld : ∀ w ∈ waiting, w.Bound judges rest t)
    (hd : d.Keeps (.restoring judges rest) (fun t _ => rest t) t) : (enter waiting d).Bound judges rest s := by
  cases d with
  | done u result =>
      obtain ⟨htu, hrest⟩ := hd
      exact ⟨ht.effects htu, hst.trans htu, fun w hw => (hheld w hw).later htu, fun _ => hrest⟩
  | tell u news resume =>
      obtain ⟨htu, hoffer, hresume⟩ := hd
      refine ⟨ht.effects htu, hst.trans htu, List.forall_mem_cons.mpr ⟨⟨.refl, hoffer, hresume⟩, ?_⟩, ?_⟩
      · exact fun w hw => (hheld w hw).later htu
      · exact fun hcalm => hcalm _ rfl

/-- Every move keeps what is known, if its judge is one of those who are heard and parties fail only at rest. -/
theorem Bound.take (h : Restored rest) (hc : c.Bound judges rest s) {m : Move}
    (hjudge : ∀ judge r, m = .ask judge r → judge ∈ judges)
    (hfault : ∀ f, m = .answer (some f) → rest c.state) : (c.take m).Bound judges rest s := by
  cases m with
  | ask judge r =>
      simp only [Config.take]
      split
      case isFalse => exact hc
      case isTrue hr =>
        rcases r.perform_restores h hc.wellFormed (hjudge judge r rfl) hr with hkeeps | ⟨t, result, hdone, hmilds⟩
        · exact .enter hc.wellFormed hc.reached hc.held hkeeps
        · rw [hdone]
          have hct : Effects judges c.state t := hmilds.effects
          exact ⟨hc.wellFormed.effects hct, hc.reached.trans hct, fun w hw => (hc.held w hw).later hct,
            fun hcalm => h.milds hc.wellFormed hmilds (hc.calm hcalm)⟩
  | answer f =>
      simp only [Config.take]
      cases hwaiting : c.waiting with
      | nil => exact hc
      | cons w ws =>
          have hheld := hwaiting ▸ hc.held
          have hw := hheld w List.mem_cons_self
          refine .enter hc.wellFormed hc.reached (fun w' hw' => hheld w' (List.mem_cons_of_mem _ hw')) ?_
          refine hw.resumes c.state f hw.since ⟨fun hrest => hc.calm fun w' hw' => ?_, fun hf => ?_⟩
          · rw [hwaiting] at hw'
            exact Option.some.inj hw' ▸ hrest
          · obtain ⟨f, rfl⟩ := Option.ne_none_iff_exists'.mp hf
            exact hfault f rfl

/-- Any number of moves keep what is known, if their judges are heard, and if nobody fails in them or rest is
everywhere. -/
theorem Bound.moves (h : Restored rest) (hc : c.Bound judges rest s) {moves : List Move}
    (hjudges : heard moves ⊆ judges) (hfault : ∀ f, .answer (some f) ∈ moves → ∀ s, rest s) :
    (moves.foldl Config.take c).Bound judges rest s := by
  induction moves generalizing c with
  | nil => exact hc
  | cons m moves ih =>
      refine ih (hc.take h (fun judge r hm => ?_) fun f hm => ?_) ?_ fun f hf =>
        hfault f (List.mem_cons_of_mem _ hf)
      · exact hjudges ⟨r, hm ▸ List.mem_cons_self⟩
      · exact hfault f (hm ▸ List.mem_cons_self) _
      · rintro judge ⟨r, hr⟩
        exact hjudges ⟨r, List.mem_cons_of_mem _ hr⟩

/-- An operation that is played, with parties that act by making moves themselves, is a matter of moves. -/
theorem enter_play {μ : Type} (respond : μ → Scheduler → News → μ × Scheduler × Option Fault)
    (hrespond : ∀ m s news waiting, ∃ (moves : List Move) (returned : Option (Except Fault Answer)),
      moves.foldl take ⟨s, waiting, none⟩ = ⟨(respond m s news).2.1, waiting, returned⟩)
    (d : Dialogue Answer) (m : μ) (waiting : List Waiting) :
    ∃ moves : List Move, moves.foldl take (enter waiting d) =
      ⟨(d.play respond m).2.1, waiting, some (d.play respond m).2.2⟩ := by
  induction d generalizing m with
  | done s result => exact ⟨[], rfl⟩
  | tell s news resume ih =>
      obtain ⟨before, returned, hbefore⟩ := hrespond m s news (⟨s, news, resume⟩ :: waiting)
      obtain ⟨after, hafter⟩ := ih (respond m s news).2.1 (respond m s news).2.2 (respond m s news).1
      refine ⟨before ++ .answer (respond m s news).2.2 :: after, ?_⟩
      rw [List.foldl_append, enter, hbefore]
      exact hafter

/-- The last move of a run. -/
theorem run_concat (moves : List Move) (m : Move) : run (moves ++ [m]) = (run moves).take m := List.foldl_concat ..

/-- What is known of every configuration of a run. -/
theorem run_bound (h : Restored rest) {moves : List Move}
    (hfault : ∀ f, .answer (some f) ∈ moves → ∀ s, rest s) : (run moves).Bound (heard moves) rest .empty :=
  (Bound.initial h).moves h Set.Subset.rfl hfault

/-- Every state of a run is well formed. -/
theorem run_wellFormed (moves : List Move) : (run moves).state.WellFormed :=
  (run_bound .everywhere fun _ _ _ => trivial).wellFormed

/-- Effects lead from nothing to every state of a run. -/
theorem run_effects (moves : List Move) : Effects (heard moves) .empty (run moves).state :=
  (run_bound .everywhere fun _ _ _ => trivial).reached

/-- Effects lead from every state of a run to all later ones. -/
theorem run_append_effects (earlier later : List Move) :
    Effects (heard (earlier ++ later)) (run earlier).state (run (earlier ++ later)).state := by
  have hearlier : heard earlier ⊆ heard (earlier ++ later) :=
    fun _ ⟨r, hr⟩ => ⟨r, List.mem_append_left _ hr⟩
  have hlater : heard later ⊆ heard (earlier ++ later) := fun _ ⟨r, hr⟩ => ⟨r, List.mem_append_right _ hr⟩
  have hbound := (Bound.initial .everywhere).moves .everywhere hearlier fun _ _ _ => trivial
  rw [run, run, List.foldl_append]
  exact (hbound.again.moves .everywhere hlater fun _ _ _ => trivial).reached

end Config

end Run

end LabelScheduler
