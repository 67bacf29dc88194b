import LabelScheduler.Proofs.Scheduler.Opening
import LabelScheduler.Proofs.Scheduler.Release

/-!
# Nodes that are taken

Whoever wants a node for something else takes it by setting it busy. Matching passes over busy nodes, so a node that
was idle is not given any item until it is set idle again. That a node is busy says nothing about why, though: taking
one that holds an item leaves no trace but in the journal, and the end of the item frees it like any other.
-/

namespace LabelScheduler

open Scheduler

namespace Request

/-- The operation sets the registration of this number idle, and is not refused. -/
def releases (s : Scheduler) (serial : Nat) : Request → Bool
  | .setState name .idle => (s.pool.find? name).any fun n => n.serial == serial && n.holds.isNone
  | _ => false

/-- The operation reports that an item has ended which the registration of this number holds, and is not refused. -/
def frees (s : Scheduler) (serial : Nat) : Request → Bool
  | .completed q item =>
    s.isBuildingIn q item && (((s.get? item).bind Entrant.node).bind s.pool.find?).any fun n =>
      n.serial == serial && n.holds == some item.id
  | _ => false

end Request

namespace Scheduler

variable {s₀ s t : Scheduler} {judge : Judge} {q : Nat} {item : ItemRef} {e : Entrant} {n m : Node} {r : Request}

/-- If the node is registered, then it is busy and holds what it held, and it was not given any item since a state. -/
structure Taken (s₀ : Scheduler) (n : Node) (s : Scheduler) : Prop where
  enrolled : n.serial < s.pool.enrolled
  kept : ∀ m ∈ s.pool.nodes, m.serial = n.serial → m.name = n.name ∧ m.state = .busy ∧ m.holds = n.holds
  given : ∀ item e a, s.get? item = some e → e.assignment = some a → a.serial = n.serial →
    ∃ e₀, s₀.get? item = some e₀ ∧ e₀.assignment = some a

namespace Taken

/-- A registered node is taken as it is set busy. -/
theorem start (hs : s.WellFormed) (hn : n ∈ s.pool.nodes) {name : String} (hname : n.name = name)
    (ht : Alike (s.withPool (·.update name fun m => { m with state := .busy })) t) : Taken t n t := by
  refine ⟨?_, fun m hm hserial => ?_, fun item e a he ha _ => ⟨e, he, ha⟩⟩
  · rw [ht.pool]
    exact hs.pool.enrolled n hn
  · rw [ht.pool] at hm
    obtain ⟨m₀, hm₀, rfl⟩ := Pool.mem_update.mp hm
    have hsame : m₀ = n := hs.pool.eq_of_serial hm₀ hn (by split at hserial <;> exact hserial)
    rw [hsame, if_pos hname]
    exact ⟨rfl, rfl, rfl⟩

/-- Journals and contacts do not matter. -/
theorem alike (h : Taken s₀ n s) (hst : Alike s t) : Taken s₀ n t :=
  ⟨hst.pool ▸ h.enrolled, hst.pool ▸ h.kept, fun item e a he => h.given item e a ((hst.get? item).symm.trans he)⟩

/-- A taken node is not eligible, so others are given items. -/
theorem assign (h : Taken s₀ n s) (hs : s.WellFormed) (hfit : Eligible judge s q m e) :
    Taken s₀ n (s.assign q m e) := by
  have hother : m.serial ≠ n.serial := by
    intro hserial
    obtain ⟨-, hbusy, -⟩ := h.kept m hfit.registered hserial
    exact nomatch hfit.idle.symm.trans hbusy
  refine ⟨h.enrolled, fun m' hm' hserial => ?_, fun item e' a he' ha hserial => ?_⟩
  · obtain ⟨m₀, hm₀, rfl⟩ := Pool.mem_update.mp hm'
    by_cases hname : m₀.name = m.name
    · obtain rfl := hs.pool.eq_of_name hm₀ hfit.registered hname
      rw [if_pos rfl] at hserial
      exact absurd hserial hother
    · rw [if_neg hname] at hserial ⊢
      exact h.kept m₀ hm₀ hserial
  · rcases hfit.get?_assign he' with ⟨-, -, hassigned⟩ | ⟨-, he⟩
    · obtain rfl := Option.some.inj (ha.symm.trans hassigned)
      exact absurd hserial hother
    · exact h.given item e' a he ha hserial

/-- Promises are kept and withdrawn without regard to nodes. -/
theorem settle (h : Taken s₀ n s) (he : s.get? item = some e) (p : Promise) : Taken s₀ n (s.settle item p) := by
  have hpool : (s.settle item p).pool = s.pool := pool_settle ..
  refine ⟨hpool ▸ h.enrolled, hpool ▸ h.kept, fun item' e' a he' ha => ?_⟩
  obtain ⟨e₀, he₀, hstays⟩ := Passive.settle he p item' e' he'
  exact h.given item' e₀ a he₀ (hstays.assignment ▸ ha)

/-- Rounds of matching leave a taken node as it is. -/
theorem rounds {judges : Set Judge} (h : Taken s₀ n s) (hs : s.WellFormed) (hst : Rounds judges s t) : Taken s₀ n t :=
  Rounds.preserve (fun halike htaken => htaken.alike halike) (fun hs hfit htaken => htaken.assign hs hfit)
    (fun he _ htaken => htaken.settle he _) hs hst h

/-- It stays taken in the opening of an operation that neither sets it idle nor frees it. -/
theorem opening (h : Taken s₀ n s) (hs : s.WellFormed) (hst : s.Opening r t)
    (hreleases : r.releases s n.serial = false) (hfrees : n.holds.isSome → r.frees s n.serial = false) :
    Taken s₀ n t := by
  refine ⟨Nat.lt_of_lt_of_le h.enrolled (Effects.enrolled_le hst.effects), fun m hm hserial => ?_,
    fun item e a he ha => ?_⟩
  · cases hst.nodeOrigin hs hm with
    | kept hm => exact h.kept m hm hserial
    | joined => exact absurd hserial (Nat.ne_of_gt h.enrolled)
    | @turned m state hthere hr hfree =>
        obtain ⟨hname, -, hholds⟩ := h.kept m hthere hserial
        cases state with
        | busy => exact ⟨hname, rfl, hholds⟩
        | idle =>
            have hreleased : m.serial = n.serial := hserial
            simp [hr, Request.releases, hs.pool.find?_of_mem hthere, hreleased, hfree rfl] at hreleases
    | @freed m q item hthere hr hbuilding hnode hholds =>
        have hfreed : m.serial = n.serial := hserial
        have hheld : n.holds = some item.id := (h.kept m hthere hfreed).2.2.symm.trans hholds
        have hnot := hfrees (hheld ▸ rfl)
        simp [hr, Request.frees, hbuilding, hnode, hs.pool.find?_of_mem hthere, hfreed, hholds] at hnot
  · -- no judge is heard in an opening, so no assignment is made there
    obtain ⟨e₁, he₁, -, ha₁⟩ := hst.effects.assigned_before hs he ha
    exact h.given item e₁ a he₁ ha₁

end Taken

/-- A node that holds an item is busy already, so taking it changes nothing. -/
theorem WellFormed.take_holding (hs : s.WellFormed) (hn : n ∈ s.pool.nodes) (hholds : n.holds.isSome) :
    s.withPool (·.update n.name fun m => { m with state := .busy }) = s := by
  have hnodes : (s.pool.update n.name fun m => { m with state := .busy }).nodes = s.pool.nodes := by
    refine (List.map_congr_left fun m hm => ?_).trans (List.map_id _)
    split
    case isTrue hname =>
      obtain rfl := hs.pool.eq_of_name hm hn hname
      have hbusy : m.state = .busy := by
        cases hstate : m.state with
        | busy => rfl
        | idle => rw [hs.pool.idle_free m hm hstate] at hholds; cases hholds
      rw [← hbusy]
      rfl
    case isFalse => rfl
  exact congrArg (fun nodes => { s with pool := { s.pool with nodes := nodes } }) hnodes

end Scheduler

namespace Config

/-- Taking a registered node succeeds, and sets the node busy. -/
theorem run_take (earlier : List Move) (judge : Judge) {name : String} {n : Node}
    (hn : (run earlier).state.pool.find? name = some n) :
    (run (earlier ++ [.ask judge (.setState name .busy)])).returned = some (.ok .nothing) ∧
      Alike ((run earlier).state.withPool (·.update name fun m => { m with state := .busy }))
        (run (earlier ++ [.ask judge (.setState name .busy)])).state := by
  rw [run_concat]
  simp only [take, Request.isOpenIn, Request.queue?, Option.all_none, if_true, Request.perform, setState, hn]
  exact ⟨rfl, .log _ _⟩

/-- In every run, a node that was taken stays taken until it is released, or freed if it held an item. -/
theorem run_append_taken {s₀ : Scheduler} {n : Node} (earlier later : List Move)
    (h : Taken s₀ n (run earlier).state)
    (hlater : ∀ before judge r after, later = before ++ .ask judge r :: after →
      r.releases (run (earlier ++ before)).state n.serial = false ∧
        (n.holds.isSome → r.frees (run (earlier ++ before)).state n.serial = false)) :
    Taken s₀ n (run (earlier ++ later)).state := by
  induction later using List.reverseRecOn with
  | nil => rwa [List.append_nil]
  | append_singleton later m ih =>
      have hbefore := ih fun before judge r after hsplit =>
        hlater before judge r (after ++ [m]) (by rw [hsplit, List.append_assoc, List.cons_append])
      have hwell := run_wellFormed (earlier ++ later)
      obtain ⟨t, hopening, hrounds⟩ := run_concat_opens (earlier ++ later) m
      rw [← List.append_assoc]
      cases hopening with
      | none => exact hbefore.rounds hwell hrounds
      | @ask judge r _ hopening =>
          obtain ⟨hreleases, hfrees⟩ := hlater later judge r [] rfl
          exact (hbefore.opening hwell hopening hreleases hfrees).rounds (hwell.effects hopening.effects) hrounds

end Config

/-- In every run, taking a registered node succeeds, and has no effect on one that holds an item. Unless a later
operation sets this registration idle, or a completion is reported that frees it from the item which it held as it was
taken, it stays busy, it holds what it held, and no item is assigned to it, whatever else happens. -/
theorem Config.run_taken (earlier later : List Move) (judge : Judge) {name : String} {n : Node}
    (hn : (run earlier).state.pool.find? name = some n) :
    let taken := earlier ++ [.ask judge (.setState name .busy)]
    let s := (run taken).state
    let t := (run (taken ++ later)).state
    (run taken).returned = some (.ok .nothing) ∧
    (n.holds.isSome → Alike (run earlier).state s) ∧
    ((∀ before judge' r after, later = before ++ .ask judge' r :: after →
        r.releases (run (taken ++ before)).state n.serial = false ∧
        (n.holds.isSome → r.frees (run (taken ++ before)).state n.serial = false)) →
      (∀ m ∈ t.pool.nodes, m.serial = n.serial → m.name = name ∧ m.state = .busy ∧ m.holds = n.holds) ∧
      ∀ item e a, t.get? item = some e → e.assignment = some a → a.serial = n.serial →
        ∃ e₀, s.get? item = some e₀ ∧ e₀.assignment = some a) := by
  intro taken s t
  have hs := run_wellFormed earlier
  obtain ⟨hmem, rfl⟩ := Pool.mem_of_find? hn
  obtain ⟨hreturned, halike⟩ := run_take earlier judge hn
  refine ⟨hreturned, fun hholds => ?_, fun hlater => ?_⟩
  · rwa [hs.take_holding hmem hholds] at halike
  · have hend : Taken s n t := run_append_taken taken later (.start hs hmem rfl halike) hlater
    exact ⟨hend.kept, hend.given⟩

/-- A node is taken that holds an item. Setting it idle is refused, so it stays busy, and an item that is submitted
then is given to another node. -/
theorem Config.run_taken_holding :
    let earlier : List Move := [.ask .lenient (.openQueue []), .ask .lenient (.register "n" (.parts [])),
      .ask .lenient (.submit 0 (.plain .none) "a" [])]
    let taken := earlier ++ [.ask .lenient (.setState "n" .busy)]
    let t := (run (taken ++ [.ask .lenient (.setState "n" .idle), .ask .lenient (.submit 0 (.plain .none) "b" []),
      .ask .lenient (.register "m" (.parts []))])).state
    (t.queue 0).building = [1, 2] ∧
      (∀ m ∈ t.pool.nodes, m.serial = 0 → m.name = "n" ∧ m.state = .busy ∧ m.holds = some 1) ∧
      ∀ item e a, t.get? item = some e → e.assignment = some a → a.serial = 0 →
        ∃ e₀, (run taken).state.get? item = some e₀ ∧ e₀.assignment = some a := by
  intro earlier taken t
  have hn : (run earlier).state.pool.find? "n" = some ⟨"n", ["n"], .busy, some 1, 0⟩ := by decide
  refine ⟨by decide, (run_taken earlier _ .lenient hn).2.2 fun before judge r after hsplit => ?_⟩
  rcases before with _ | ⟨m₁, _ | ⟨m₂, _ | ⟨m₃, before⟩⟩⟩
  all_goals
    simp only [List.nil_append, List.cons_append, List.cons.injEq, Move.ask.injEq, reduceCtorEq,
      List.nil_eq_append_iff, and_false] at hsplit
  · obtain ⟨⟨-, rfl⟩, -⟩ := hsplit
    exact ⟨by decide, fun _ => by decide⟩
  · obtain ⟨rfl, ⟨-, rfl⟩, -⟩ := hsplit
    exact ⟨by decide, fun _ => by decide⟩
  · obtain ⟨rfl, rfl, ⟨-, rfl⟩, -⟩ := hsplit
    exact ⟨by decide, fun _ => by decide⟩

/-- A node is taken while it holds an item, and nobody sets it idle. As the item ends, the next one is assigned to the
node. -/
theorem Config.run_taken_freed_by_completion :
    let taken : List Move := [.ask .lenient (.openQueue []), .ask .lenient (.register "n" (.parts [])),
      .ask .lenient (.submit 0 (.plain .none) "a" []), .ask .lenient (.submit 0 (.plain .none) "b" []),
      .ask .lenient (.setState "n" .busy)]
    let t := (run (taken ++ [.ask .lenient (.completed 0 ⟨0, 1⟩)])).state
    (run taken).returned = some (.ok .nothing) ∧
      (run taken).state.pool.find? "n" = some ⟨"n", ["n"], .busy, some 1, 0⟩ ∧
      ((run taken).state.get? ⟨0, 2⟩).map Entrant.assignment = some none ∧
      (t.get? ⟨0, 2⟩).map (fun e => e.assignment.map Assignment.serial) = some (some 0) :=
  ⟨rfl, by decide, by decide, by decide⟩

end LabelScheduler
