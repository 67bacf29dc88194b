import LabelScheduler.Proofs.Scheduler.Run

/-!
# Courses of operations

An operation may go on in many ways, as every party that it tells some news may work on the scheduler and may
fail. A course is one of these ways in full: what the operation told to whom and in which state, how the party
came back, and how the operation ended. An operation that is played takes a course, and so does an operation of
a run from the moment when it is asked for until it returns.
-/

namespace LabelScheduler

open Scheduler

/-- Effects lead from one state to the other, whatever policies answer on the way. -/
abbrev Scheduler.Reaches (s t : Scheduler) : Prop := Effects Set.univ s t

/-- News that a party was told: the state in which it was told, and the state and the fault with which it came
back. -/
structure Exchange where
  told : Scheduler
  news : News
  back : Scheduler
  fault : Option Fault

/-- The fault of the first party that failed. -/
def firstFault (xs : List Exchange) : Option Fault := xs.findSome? Exchange.fault

/-- The first of several parties failed, or else the first of the others. -/
theorem firstFault_append (xs ys : List Exchange) : firstFault (xs ++ ys) = (firstFault xs).or (firstFault ys) :=
  List.findSome?_append

namespace Dialogue

variable {α β : Type} {d : Dialogue α} {s t : Scheduler} {xs : List Exchange} {result : Except Fault α}

/-- One way in which an operation may go on to its end: what was exchanged with parties, in order, and the last
state and the result. Parties may do anything to the scheduler that can be asked for. -/
inductive Course : Dialogue α → List Exchange → Scheduler → Except Fault α → Prop where
  | done (s : Scheduler) (result : Except Fault α) : Course (.done s result) [] s result
  | tell {s u t : Scheduler} {news : News} {resume : Scheduler → Option Fault → Dialogue α} {f : Option Fault}
      {xs : List Exchange} {result : Except Fault α} (hparty : s.Reaches u)
      (hrest : Course (resume u f) xs t result) : Course (.tell s news resume) (⟨s, news, u, f⟩ :: xs) t result

namespace Course

/-- A course of two operations, the second of which follows if the first succeeds, consists of a course of each,
or the first one fails. -/
theorem of_andThen {next : Scheduler → α → Dialogue β} {result : Except Fault β}
    (h : (d.andThen next).Course xs t result) :
    (∃ f, d.Course xs t (.error f) ∧ result = .error f) ∨
      ∃ before after u a, xs = before ++ after ∧ d.Course before u (.ok a) ∧ (next u a).Course after t result := by
  induction d generalizing xs with
  | done s first =>
      cases first with
      | ok a => exact .inr ⟨[], xs, s, a, rfl, .done _ _, h⟩
      | error f =>
          cases h with
          | done => exact .inl ⟨f, .done _ _, rfl⟩
  | tell s news resume ih =>
      cases h with
      | @tell _ u _ _ _ f xs _ hparty hrest =>
          rcases ih u f hrest with ⟨f', hfirst, hresult⟩ | ⟨before, after, v, a, rfl, hfirst, hnext⟩
          · exact .inl ⟨f', .tell hparty hfirst, hresult⟩
          · exact .inr ⟨_ :: before, after, v, a, rfl, .tell hparty hfirst, hnext⟩

/-- Where another result is given in place of that of an operation, the course is one of the operation. -/
theorem of_returning {g : Scheduler → β} {result : Except Fault β}
    (h : (d.returning g).Course xs t result) :
    ∃ first, d.Course xs t first ∧ result = first.map fun _ => g t := by
  rcases of_andThen h with ⟨f, hfirst, rfl⟩ | ⟨before, after, u, a, rfl, hfirst, hlast⟩
  · exact ⟨.error f, hfirst, rfl⟩
  · cases hlast with
    | done => exact ⟨.ok a, by rwa [List.append_nil], rfl⟩

/-- Where the result of an operation is changed, the course is one of the operation. -/
theorem of_map {g : α → β} {result : Except Fault β} (h : (d.map g).Course xs t result) :
    ∃ first, d.Course xs t first ∧ result = first.map g := by
  rcases of_andThen h with ⟨f, hfirst, rfl⟩ | ⟨before, after, u, a, rfl, hfirst, hlast⟩
  · exact ⟨.error f, hfirst, rfl⟩
  · cases hlast with
    | done => exact ⟨.ok a, by rwa [List.append_nil], rfl⟩

/-- An operation that is played takes a course, in which parties come back as they respond. -/
theorem exists_of_play {μ : Type} (respond : μ → Scheduler → News → μ × Scheduler × Option Fault)
    (hrespond : ∀ m (s : Scheduler) news, s.Reaches (respond m s news).2.1) (d : Dialogue α) (m : μ) :
    ∃ xs, d.Course xs (d.play respond m).2.1 (d.play respond m).2.2 ∧
      ∀ x ∈ xs, ∃ m, (respond m x.told x.news).2 = (x.back, x.fault) := by
  induction d generalizing m with
  | done s result => exact ⟨[], .done s result, fun x hx => absurd hx List.not_mem_nil⟩
  | tell s news resume ih =>
      obtain ⟨xs, hrest, hback⟩ := ih (respond m s news).2.1 (respond m s news).2.2 (respond m s news).1
      exact ⟨_ :: xs, .tell (hrespond m s news) hrest, List.forall_mem_cons.mpr ⟨⟨m, rfl⟩, hback⟩⟩

end Course

end Dialogue

namespace Config

variable {c : Config} {s t : Scheduler} {w : Waiting} {waiting : List Waiting} {moves : List Move}
  {result : Except Fault Answer}

/-- The operation that began when these others were waiting returns after the moves, and not before. -/
inductive Returns (waiting : List Waiting) : Config → List Move → Scheduler → Except Fault Answer → Prop where
  | now (t : Scheduler) (result : Except Fault Answer) : Returns waiting ⟨t, waiting, some result⟩ [] t result
  | later {c : Config} {w : Waiting} {m : Move} {moves : List Move} {t : Scheduler} {result : Except Fault Answer}
      (hwaiting : w :: waiting <:+ c.waiting) (hrest : Returns waiting (c.take m) moves t result) :
      Returns waiting c (m :: moves) t result

/-- An operation that nothing waited for has returned when nothing waits. -/
theorem Returns.of_length (hnone : c.waiting.length = 0) (hreturned : c.returned = some result) :
    Returns [] c [] c.state result := by
  obtain ⟨t, waiting, returned⟩ := c
  obtain rfl : waiting = [] := List.length_eq_zero_iff.mp hnone
  obtain rfl : returned = some result := hreturned
  exact .now t result

/-- An operation that nothing waited for has not returned while anything waits. -/
theorem Returns.later_of_pos {m : Move} (hpos : 0 < c.waiting.length)
    (hrest : Returns [] (c.take m) moves t result) : Returns [] c (m :: moves) t result := by
  have hne : c.waiting ≠ [] := List.length_pos_iff.mp hpos
  have hsuffix : [c.waiting.getLast hne] <:+ c.waiting := ⟨_, List.dropLast_append_getLast hne⟩
  exact .later hsuffix hrest

/-- An operation that these others wait for is not one of them. -/
theorem not_suffix_self (w : Waiting) (waiting : List Waiting) : ¬ w :: waiting <:+ waiting :=
  fun h => absurd h.length_le (by simp)

/-- While a party has its say, a move leaves the operation waiting that told it, unless the party comes back. -/
theorem suffix_take (h : w :: waiting <:+ c.waiting) (m : Move) :
    w :: waiting <:+ (c.take m).waiting ∨
      ∃ f, m = .answer f ∧ c.waiting = w :: waiting ∧ c.take m = enter waiting (w.resume c.state f) := by
  have hentered (ws : List Waiting) (d : Dialogue Answer) : ws <:+ (enter ws d).waiting := by
    cases d with
    | done => exact List.suffix_rfl
    | tell => exact List.suffix_cons _ _
  cases m with
  | ask judge r =>
      refine .inl ?_
      simp only [take]
      split
      case isTrue => exact h.trans (hentered _ _)
      case isFalse => exact h
  | answer f =>
      cases hwaiting : c.waiting with
      | nil => exact absurd (hwaiting ▸ h) (by simp)
      | cons w' ws =>
          rw [hwaiting] at h
          have htake : c.take (.answer f) = enter ws (w'.resume c.state f) := by simp only [take, hwaiting]
          rcases List.suffix_cons_iff.mp h with heq | hbelow
          · obtain ⟨rfl, rfl⟩ := List.cons.inj heq
            exact .inr ⟨f, rfl, rfl, htake⟩
          · exact .inl (htake ▸ hbelow.trans (hentered _ _))

/-- Any move keeps what is known of a configuration, where nothing is asked of the states in which parties fail. -/
theorem Bound.takeAny (hc : c.Bound Set.univ (fun _ => True) s) (m : Move) :
    (c.take m).Bound Set.univ (fun _ => True) s :=
  hc.take .everywhere (fun judge _ _ => Set.mem_univ judge) fun _ _ => trivial

/-- Before an operation returns that waits for a party, the party comes back from where it was told, and the
operation goes on from there. -/
theorem Bound.turn (hc : c.Bound Set.univ (fun _ => True) s) (h : w :: waiting <:+ c.waiting)
    (hreturn : Returns waiting c moves t result) :
    ∃ u f later, s.Reaches u ∧ (Config.enter waiting (w.resume u f)).Bound Set.univ (fun _ => True) s ∧
      Returns waiting (Config.enter waiting (w.resume u f)) later t result := by
  induction hreturn with
  | now => exact absurd h (not_suffix_self _ _)
  | @later c _ m moves t result hwaiting hrest ih =>
      rcases suffix_take h m with hstays | ⟨f, rfl, -, htake⟩
      · exact ih (hc.takeAny m) hstays
      · exact ⟨c.state, f, moves, hc.reached, htake ▸ hc.takeAny _, htake ▸ hrest⟩

/-- An operation that was begun and returns has taken a course. -/
theorem Bound.course {d : Dialogue Answer} (hc : (Config.enter waiting d).Bound Set.univ (fun _ => True) s)
    (hreturn : Returns waiting (Config.enter waiting d) moves t result) : ∃ xs, d.Course xs t result := by
  induction d generalizing s moves with
  | done u first =>
      cases hreturn with
      | now => exact ⟨[], .done _ _⟩
      | later hwaiting => exact absurd hwaiting (not_suffix_self _ _)
  | tell u news resume ih =>
      obtain ⟨v, f, later, hparty, hbound, hlater⟩ := Bound.turn hc.again List.suffix_rfl hreturn
      obtain ⟨xs, hrest⟩ := ih v f hbound hlater
      exact ⟨_ :: xs, .tell hparty hrest⟩

/-- From the moment when it is asked for in a run until it returns, an operation takes a course. -/
theorem run_course {before during : List Move} {judge : Judge} {r : Request}
    (hopen : r.isOpenIn (run before).state = true)
    (hreturn : Returns (run before).waiting ((run before).take (.ask judge r)) during t result) :
    ∃ xs, (r.perform judge (run before).state).Course xs t result := by
  have hbefore := (Bound.initial .everywhere).moves .everywhere (Set.subset_univ (heard before)) fun _ _ _ => trivial
  have hasked := hbefore.takeAny (.ask judge r)
  have htake : (run before).take (.ask judge r) =
      enter (run before).waiting (r.perform judge (run before).state) := by simp only [take, if_pos hopen]
  rw [htake] at hreturn
  exact Bound.course (htake ▸ hasked) hreturn

end Config

end LabelScheduler
