import LabelScheduler.Proofs.Scheduler.Effect

/-!
# What matching does

Matching is a chain of assignments, each of an item and a node that are eligible at that very moment, and
between them only the journal and the contacts change. The moments are found by going through the passes once
more, keeping the states in which they make their assignments. The answers that are kept within a pass are what
the blockers would say again, because a pass forgets them when it makes an assignment. If no blocker fails, the
last pass makes no assignment, and then every pending item is refused by every idle node.
-/

namespace LabelScheduler

/-- The answer that a reason to wait, or its absence, stands for. -/
def Verdict.ofReason : Option String → Verdict
  | none => .free
  | some r => .held r

/-- In this state this item is given to this node. -/
structure Moment where
  state : Scheduler
  node : Node
  entrant : Entrant

/-- The number of the item. -/
def Moment.id (m : Moment) : Nat := m.entrant.item.id

namespace Scheduler

variable {judge : Judge} {q : Nat} {s t u : Scheduler} {item : ItemRef} {bs : List Blocker}

/-- States that are alike get the same answer from a blocker. -/
theorem Says.alike {b : Blocker} {v : Verdict} (h : Alike s t) (hb : Says judge s q item b v) :
    Says judge t q item b v :=
  hb.imp fun _ hu => ⟨h.symm.trans hu.1, hu.2⟩

namespace Answered

variable {b : Blocker} {v : Verdict}

/-- States that are alike get the same answers. -/
theorem alike (h : Alike s t) (ha : Answered judge s q item bs v) : Answered judge t q item bs v := by
  have hsplit {v : Verdict} : (∃ before b after, bs = before ++ b :: after ∧
      (∀ c ∈ before, Says judge s q item c .free) ∧ Says judge s q item b v) →
      ∃ before b after, bs = before ++ b :: after ∧
        (∀ c ∈ before, Says judge t q item c .free) ∧ Says judge t q item b v :=
    fun ⟨before, b, after, hbs, hbefore, hb⟩ =>
      ⟨before, b, after, hbs, fun c hc => (hbefore c hc).alike h, hb.alike h⟩
  cases v with
  | free => exact fun b hb => (ha b hb).alike h
  | held r => exact hsplit ha
  | failed f => exact hsplit ha

/-- The first blocker does not let the item go. -/
theorem head (hb : Says judge s q item b v) (hv : v ≠ .free) : Answered judge s q item (b :: bs) v := by
  cases v with
  | free => exact absurd rfl hv
  | held r => exact ⟨[], b, bs, rfl, fun c hc => absurd hc List.not_mem_nil, hb⟩
  | failed f => exact ⟨[], b, bs, rfl, fun c hc => absurd hc List.not_mem_nil, hb⟩

/-- The first blocker lets the item go. -/
theorem cons (hb : Says judge s q item b .free) (h : Answered judge s q item bs v) :
    Answered judge s q item (b :: bs) v := by
  have hsplit {v : Verdict} : (∃ before c after, bs = before ++ c :: after ∧
      (∀ c ∈ before, Says judge s q item c .free) ∧ Says judge s q item c v) →
      ∃ before c after, b :: bs = before ++ c :: after ∧
        (∀ c ∈ before, Says judge s q item c .free) ∧ Says judge s q item c v :=
    fun ⟨before, c, after, hbs, hbefore, hc⟩ =>
      ⟨b :: before, c, after, by rw [hbs, List.cons_append], List.forall_mem_cons.mpr ⟨hb, hbefore⟩, hc⟩
  cases v with
  | free => exact List.forall_mem_cons.mpr ⟨hb, h⟩
  | held r => exact hsplit h
  | failed f => exact hsplit h

end Answered

/-- Asking blockers changes the contacts at most, and gives what they answer. -/
theorem ask_spec (judge : Judge) (s : Scheduler) (q : Nat) (item : ItemRef) (bs : List Blocker) :
    Alike s (s.ask judge q item bs).1 ∧ Answered judge s q item bs (s.ask judge q item bs).2 := by
  induction bs generalizing s with
  | nil => exact ⟨.refl s, fun b hb => absurd hb List.not_mem_nil⟩
  | cons b bs ih =>
      have hasked : Alike s ((b.contact item).foldl record s) := .records _ _
      simp only [ask]
      generalize (b.contact item).foldl record s = asked at hasked ⊢
      cases hv : b.verdict judge asked q item with
      | free =>
          obtain ⟨hrest, hanswered⟩ := ih asked
          exact ⟨hasked.trans hrest, .cons ⟨asked, hasked, hv⟩ (hanswered.alike hasked.symm)⟩
      | held r => exact ⟨hasked, .head ⟨asked, hasked, hv⟩ nofun⟩
      | failed f => exact ⟨hasked, .head ⟨asked, hasked, hv⟩ nofun⟩

/-- The answers kept so far are those that the blockers give. -/
def Sound (judge : Judge) (s : Scheduler) (q : Nat) (known : Answers) : Prop :=
  ∀ e, s.get? ⟨q, e.item.id⟩ = some e → ∀ a, known.find? (·.1 == e.item.id) = some a →
    Answered judge s q ⟨q, e.item.id⟩ e.item.blockers (.ofReason a.2)

/-- No answers are kept. -/
theorem Sound.nil (judge : Judge) (s : Scheduler) (q : Nat) : Sound judge s q [] :=
  fun _ _ _ ha => nomatch ha

/-- Kept answers stay good in states that are alike. -/
theorem Sound.alike {known : Answers} (h : Alike s t) (hk : Sound judge s q known) :
    Sound judge t q known :=
  fun e he a ha => (hk e (h.get? _ ▸ he) a ha).alike h

/-- A fresh answer may be kept. -/
theorem Sound.cons {known : Answers} {e : Entrant} {reason : Option String} (hk : Sound judge s q known)
    (he : s.get? ⟨q, e.item.id⟩ = some e)
    (ha : Answered judge s q ⟨q, e.item.id⟩ e.item.blockers (.ofReason reason)) :
    Sound judge s q ((e.item.id, reason) :: known) := by
  intro e' he' a hfind
  rw [List.find?_cons] at hfind
  split at hfind
  case h_1 hid =>
    have hid : e.item.id = e'.item.id := by simpa using hid
    have hsame : e = e' := Option.some.inj (he.symm.trans (hid ▸ he'))
    subst hsame
    rw [← Option.some.inj hfind]
    exact ha
  case h_2 => exact hk e' he' a hfind

/-- If a blocker fails while the answers are looked up, this is what the blockers answer. -/
theorem heldBy_error {known : Answers} {e : Entrant} {f : Fault}
    (h : s.heldBy judge q known e = (t, .error f)) :
    Alike s t ∧ Answered judge s q ⟨q, e.item.id⟩ e.item.blockers (.failed f) := by
  obtain ⟨halike, hanswered⟩ := ask_spec judge s q ⟨q, e.item.id⟩ e.item.blockers
  simp only [heldBy] at h
  split at h
  case h_1 => cases h
  case h_2 =>
    split at h
    case h_1 hask =>
      obtain ⟨rfl, hf⟩ := Prod.mk.inj h
      rw [hask] at halike hanswered
      exact ⟨halike, Except.error.inj hf ▸ hanswered⟩
    case h_2 => cases h
    case h_3 => cases h

/-- An answer that was kept, or is given now, is what the blockers answer. -/
theorem heldBy_ok {known known' : Answers} {e : Entrant} {reason : Option String}
    (he : s.get? ⟨q, e.item.id⟩ = some e) (hk : Sound judge s q known)
    (h : s.heldBy judge q known e = (t, .ok (known', reason))) :
    Alike s t ∧ Sound judge t q known' ∧
      Answered judge s q ⟨q, e.item.id⟩ e.item.blockers (.ofReason reason) := by
  obtain ⟨halike, hanswered⟩ := ask_spec judge s q ⟨q, e.item.id⟩ e.item.blockers
  simp only [heldBy] at h
  split at h
  case h_1 a hfind =>
    obtain ⟨rfl, hok⟩ := Prod.mk.inj h
    obtain ⟨rfl, rfl⟩ := Prod.mk.inj (Except.ok.inj hok)
    exact ⟨.refl s, hk, hk e he a hfind⟩
  case h_2 =>
    split at h
    case h_1 => cases h
    case h_2 hask =>
      obtain ⟨rfl, hok⟩ := Prod.mk.inj h
      obtain ⟨rfl, rfl⟩ := Prod.mk.inj (Except.ok.inj hok)
      rw [hask] at halike hanswered
      have hfree : Answered judge s q ⟨q, e.item.id⟩ e.item.blockers (.ofReason none) := hanswered
      exact ⟨halike, (hk.cons he hfree).alike halike, hfree⟩
    case h_3 s' r hask =>
      obtain ⟨rfl, hok⟩ := Prod.mk.inj h
      obtain ⟨rfl, rfl⟩ := Prod.mk.inj (Except.ok.inj hok)
      rw [hask] at halike hanswered
      have hheld : Answered judge s q ⟨q, e.item.id⟩ e.item.blockers (.ofReason (some r)) := hanswered
      have hlogged := halike.trans (.log s' (.itemBlocked e.item.id r))
      exact ⟨hlogged, (hk.cons he hheld).alike hlogged, hheld⟩

/-- The item is held back, or it is let go and the node does not satisfy its label. -/
def Refused (judge : Judge) (s : Scheduler) (q : Nat) (n : Node) (e : Entrant) : Prop :=
  (∃ r, Answered judge s q ⟨q, e.item.id⟩ e.item.blockers (.held r)) ∨
    Answered judge s q ⟨q, e.item.id⟩ e.item.blockers .free ∧ n.meets e.item.label = false

/-- Refusals stay in states that are alike. -/
theorem Refused.alike {n : Node} {e : Entrant} (h : Alike s t) (hr : Refused judge s q n e) :
    Refused judge t q n e :=
  hr.imp (fun ⟨r, ha⟩ => ⟨r, ha.alike h⟩) fun ⟨ha, hmeets⟩ => ⟨ha.alike h, hmeets⟩

/-- How the choice among items for a node may end: a blocker fails, all items are refused, or the first
one that is not refused is taken. -/
inductive Selected (judge : Judge) (q : Nat) (n : Node) (s : Scheduler) (es : List Entrant) :
    Scheduler × Except Fault (Answers × Option Entrant) → Prop where
  | failed {t : Scheduler} {f : Fault} {e : Entrant} (before after : List Entrant) (h : Alike s t)
      (hes : es = before ++ e :: after) (hrefused : ∀ e ∈ before, Refused judge s q n e)
      (hf : Answered judge s q ⟨q, e.item.id⟩ e.item.blockers (.failed f)) :
      Selected judge q n s es (t, .error f)
  | nobody {t : Scheduler} {known : Answers} (h : Alike s t) (hk : Sound judge t q known)
      (hrefused : ∀ e ∈ es, Refused judge s q n e) : Selected judge q n s es (t, .ok (known, none))
  | first {t : Scheduler} {known : Answers} {e : Entrant} (before after : List Entrant) (h : Alike s t)
      (hes : es = before ++ e :: after) (hrefused : ∀ e ∈ before, Refused judge s q n e)
      (hfree : Answered judge s q ⟨q, e.item.id⟩ e.item.blockers .free)
      (hmeets : n.meets e.item.label = true) : Selected judge q n s es (t, .ok (known, some e))

/-- The choice changes the journal and the contacts at most. -/
theorem Selected.alike {n : Node} {es : List Entrant} {r : Scheduler × Except Fault (Answers × Option Entrant)}
    (h : Selected judge q n s es r) : Alike s r.1 := by
  cases h with
  | failed before after halike => exact halike
  | nobody halike => exact halike
  | first before after halike => exact halike

/-- After an item was refused, the choice goes on among the others. -/
theorem Selected.cons {n : Node} {e : Entrant} {es : List Entrant}
    {r : Scheduler × Except Fault (Answers × Option Entrant)} (h : Alike s t)
    (he : Refused judge s q n e) (hr : Selected judge q n t es r) : Selected judge q n s (e :: es) r := by
  have hcons {es : List Entrant} (hrefused : ∀ e' ∈ es, Refused judge t q n e') :
      ∀ e' ∈ e :: es, Refused judge s q n e' :=
    List.forall_mem_cons.mpr ⟨he, fun e' he' => (hrefused e' he').alike h.symm⟩
  cases hr with
  | failed before after hu hes hrefused hf =>
      exact .failed (e :: before) after (h.trans hu) (by rw [hes, List.cons_append]) (hcons hrefused)
        (hf.alike h.symm)
  | nobody hu hk hrefused => exact .nobody (h.trans hu) hk (hcons hrefused)
  | first before after hu hes hrefused hfree hmeets =>
      exact .first (e :: before) after (h.trans hu) (by rw [hes, List.cons_append]) (hcons hrefused)
        (hfree.alike h.symm) hmeets

/-- The choice among items for a node ends in one of these ways. -/
theorem select_selected {es : List Entrant} {known : Answers} (n : Node)
    (hes : ∀ e ∈ es, s.get? ⟨q, e.item.id⟩ = some e) (hk : Sound judge s q known) :
    Selected judge q n s es (s.select judge q n known es) := by
  induction es generalizing s known with
  | nil => exact .nobody (.refl s) hk fun e he => absurd he List.not_mem_nil
  | cons e es ih =>
      have he := hes e List.mem_cons_self
      simp only [select]
      split
      case h_1 t f hheld =>
        obtain ⟨halike, hanswered⟩ := heldBy_error hheld
        exact .failed [] es halike rfl (fun e he => absurd he List.not_mem_nil) hanswered
      case h_2 t known' reason hheld =>
        obtain ⟨halike, hk', hanswered⟩ := heldBy_ok he hk hheld
        have hrest : Selected judge q n t es (t.select judge q n known' es) :=
          ih (fun e' he' => halike.get? _ ▸ hes e' (List.mem_cons_of_mem _ he')) hk'
        cases reason with
        | some r => exact .cons halike (.inl ⟨r, hanswered⟩) hrest
        | none =>
            cases hmeets : n.meets e.item.label with
            | false => exact .cons halike (.inr ⟨hanswered, hmeets⟩) hrest
            | true =>
                simp only [Option.isNone_none, Bool.and_self, if_true]
                exact .first [] es halike rfl (fun e he => absurd he List.not_mem_nil) hanswered hmeets

/-- Assignments lead from one state to another. They are made at these moments, each of an item and a node that are
eligible in the state of the moment, and between them only the journal and the contacts change. -/
inductive Assigns (judge : Judge) (q : Nat) : Scheduler → List Moment → Scheduler → Prop where
  | stop {s t : Scheduler} (h : Alike s t) : Assigns judge q s [] t
  | next {s t : Scheduler} {m : Moment} {moments : List Moment} (h : Alike s m.state)
      (hfit : Eligible judge m.state q m.node m.entrant)
      (hrest : Assigns judge q (m.state.assign q m.node m.entrant) moments t) : Assigns judge q s (m :: moments) t

namespace Assigns

variable {moments moments' : List Moment}

/-- Journal and contacts may change before the first assignment. -/
theorem head (h : Alike s t) (ht : Assigns judge q t moments u) : Assigns judge q s moments u := by
  cases ht with
  | stop h' => exact .stop (h.trans h')
  | next h' hfit hrest => exact .next (h.trans h') hfit hrest

/-- One chain of assignments may follow another. -/
theorem append (hs : Assigns judge q s moments t) (ht : Assigns judge q t moments' u) :
    Assigns judge q s (moments ++ moments') u := by
  induction hs with
  | stop h => exact ht.head h
  | next h hfit _ ih => exact .next h hfit (ih ht)

/-- Without any assignment only the journal and the contacts change. -/
theorem alike (h : Assigns judge q s [] t) : Alike s t := by
  cases h with
  | stop h => exact h

/-- What each assignment preserves, and does not depend on journals and contacts, is preserved by all of them
together. -/
theorem preserve {P : Scheduler → Prop} (halike : ∀ {s t}, Alike s t → P s → P t)
    (hassign : ∀ {s n e}, Eligible judge s q n e → P s → P (s.assign q n e)) (h : Assigns judge q s moments t)
    (hs : P s) : P t := by
  induction h with
  | stop h => exact halike h hs
  | next h hfit _ ih => exact ih (hassign hfit (halike h hs))

/-- Assignments are effects, if the judge who lets the items go is heard. -/
theorem effects {judges : Set Judge} (hjudge : judge ∈ judges) (h : Assigns judge q s moments t) :
    Effects judges s t :=
  h.preserve (fun hst hs => hs.tail (.note hst)) (fun hfit hs => hs.tail (.assign hjudge hfit)) .refl

/-- Assignments leave a well-formed state behind. -/
theorem wellFormed (hs : s.WellFormed) (h : Assigns judge q s moments t) : t.WellFormed :=
  hs.effects (h.effects (Set.mem_univ judge))

/-- Each assignment takes one item out of the pending ones. -/
theorem length_pending (h : Assigns judge q s moments t) :
    (t.queue q).pending.length + moments.length = (s.queue q).pending.length := by
  induction h with
  | stop h => simp [h.queue]
  | @next s t m moments h hfit _ ih =>
      have hq := lt_of_mem (.inl hfit.pending)
      have hassigned : ((m.state.assign q m.node m.entrant).queue q).pending =
          (m.state.queue q).pending.erase m.entrant.item.id := by
        rw [queue_assign, if_pos ⟨rfl, hq⟩]
        rfl
      have hlength := List.length_erase_add_one hfit.pending
      rw [hassigned] at ih
      rw [List.length_cons, ← h.queue q]
      omega

end Assigns

/-- Assigning an item to a node leaves the nodes of other names as they are. -/
theorem mem_nodes_assign {m n : Node} {e : Entrant} (hm : m ∈ s.pool.nodes) (hname : m.name ≠ n.name) :
    m ∈ (s.assign q n e).pool.nodes :=
  Pool.mem_update.mpr ⟨m, hm, if_neg hname⟩

/-- How a walk over nodes goes: for each of them a choice among the pending items is made, and the item that is
chosen is assigned. It ends with the nodes, with the pending items, or with a blocker that fails. -/
inductive Walk (judge : Judge) (q : Nat) : List Node → Scheduler → Matched → Prop where
  | done {nodes : List Node} {s : Scheduler} (h : nodes = [] ∨ (s.queue q).pendingEntrants = []) :
      Walk judge q nodes s ⟨s, [], none⟩
  | failed {n : Node} {nodes : List Node} {s t : Scheduler} {f : Fault}
      (h : Selected judge q n s (s.queue q).pendingEntrants (t, .error f)) :
      Walk judge q (n :: nodes) s ⟨t, [], some f⟩
  | nobody {n : Node} {nodes : List Node} {s t : Scheduler} {known : Answers} {m : Matched}
      (h : Selected judge q n s (s.queue q).pendingEntrants (t, .ok (known, none)))
      (hrest : Walk judge q nodes t m) : Walk judge q (n :: nodes) s m
  | given {n : Node} {nodes : List Node} {s t : Scheduler} {known : Answers} {e : Entrant} {m : Matched}
      (h : Selected judge q n s (s.queue q).pendingEntrants (t, .ok (known, some e)))
      (hfit : Eligible judge t q n e) (hrest : Walk judge q nodes (t.assign q n e) m) :
      Walk judge q (n :: nodes) s { m with made := e.item.id :: m.made }

/-- These nodes can be walked over with the answers kept so far: the answers are good, and the nodes are idle and have
different names. -/
structure Ready (judge : Judge) (q : Nat) (nodes : List Node) (s : Scheduler) (known : Answers) : Prop where
  well : s.WellFormed
  sound : Sound judge s q known
  idle : ∀ n ∈ nodes, n ∈ s.pool.nodes ∧ n.state = .idle
  names : (nodes.map Node.name).Nodup

namespace Ready

variable {n : Node} {nodes : List Node} {known known' : Answers} {e : Entrant}

/-- For the first node a choice is made. -/
theorem selected (h : Ready judge q (n :: nodes) s known) :
    Selected judge q n s (s.queue q).pendingEntrants (s.select judge q n known (s.queue q).pendingEntrants) :=
  select_selected n (fun _ he => ((h.well.queues q).mem_pendingEntrants.mp he).1) h.sound

/-- If no item is chosen for it, the walk goes on to the others. -/
theorem passed (h : Ready judge q (n :: nodes) s known)
    (hselect : s.select judge q n known (s.queue q).pendingEntrants = (t, .ok (known', none))) :
    Ready judge q nodes t known' := by
  have hselected := hselect ▸ h.selected
  cases hselected with
  | nobody halike hk' hrefused =>
      refine ⟨h.well.alike halike, hk', fun m hm => ?_, (List.nodup_cons.mp h.names).2⟩
      exact halike.pool.symm ▸ h.idle m (List.mem_cons_of_mem _ hm)

/-- An item that is chosen for it is eligible. -/
theorem eligible (h : Ready judge q (n :: nodes) s known)
    (hselect : s.select judge q n known (s.queue q).pendingEntrants = (t, .ok (known', some e))) :
    Eligible judge t q n e := by
  have hselected := hselect ▸ h.selected
  cases hselected with
  | first before after halike hes hrefused hfree hmeets =>
      have he : e ∈ (s.queue q).pendingEntrants := hes ▸ List.mem_append_right _ List.mem_cons_self
      obtain ⟨hget, hpending⟩ := (h.well.queues q).mem_pendingEntrants.mp he
      obtain ⟨hn, hidle⟩ := h.idle n List.mem_cons_self
      exact
        { registered := halike.pool ▸ hn
          idle := hidle
          known := (halike.get? _).trans hget
          pending := (halike.queue q).symm ▸ hpending
          free := hfree.alike halike
          meets := hmeets }

/-- When the item is assigned, the walk goes on to the others, and no answers are kept. -/
theorem given (h : Ready judge q (n :: nodes) s known)
    (hselect : s.select judge q n known (s.queue q).pendingEntrants = (t, .ok (known', some e))) :
    Ready judge q nodes (t.assign q n e) [] := by
  have hfit := h.eligible hselect
  have hselected := hselect ▸ h.selected
  obtain ⟨hnew, hnames⟩ := List.nodup_cons.mp h.names
  cases hselected with
  | first before after halike hes hrefused hfree hmeets =>
      refine ⟨(h.well.alike halike).assign n hfit.pending, .nil judge _ q, fun m hm => ?_, hnames⟩
      obtain ⟨hm', hmidle⟩ := h.idle m (List.mem_cons_of_mem _ hm)
      have hother : m.name ≠ n.name := fun heq => hnew (heq ▸ List.mem_map_of_mem hm)
      exact ⟨mem_nodes_assign (halike.pool.symm ▸ hm') hother, hmidle⟩

end Ready

/-- Nodes that can be walked over are walked over in this way. -/
theorem matchNodes_walk {nodes : List Node} {known : Answers} (h : Ready judge q nodes s known) :
    Walk judge q nodes s (matchNodes judge q nodes s known) := by
  induction nodes generalizing s known with
  | nil => exact .done (.inl rfl)
  | cons n nodes ih =>
      have hselected := h.selected
      simp only [matchNodes]
      split
      case isTrue hpending =>
        refine .done (.inr ?_)
        rw [Queue.pendingEntrants, List.isEmpty_iff.mp hpending, List.filterMap_nil]
      case isFalse =>
        split
        case h_1 hselect => exact .failed (hselect ▸ hselected)
        case h_2 hselect => exact .nobody (hselect ▸ hselected) (ih (h.passed hselect))
        case h_3 hselect => exact .given (hselect ▸ hselected) (h.eligible hselect) (ih (h.given hselect))

/-- The state in which a pass begins: it is noted how many nodes are idle and how many items are pending and
building. -/
def noted (q k : Nat) (s : Scheduler) : Scheduler :=
  s.log (.matchPass k s.pool.idle.length (s.queue q).pending.length (s.queue q).building.length)

/-- Noting a pass changes nothing else. -/
theorem noted_alike (q k : Nat) (s : Scheduler) : Alike s (s.noted q k) := .log _ _

/-- At the start of a pass the idle nodes can be walked over. -/
theorem ready_noted (hs : s.WellFormed) (judge : Judge) (q k : Nat) :
    Ready judge q s.pool.idle (s.noted q k) [] := by
  refine ⟨hs.alike (noted_alike q k s), .nil judge _ q, fun n hn => ?_,
    hs.pool.named.sublist (List.filter_sublist.map _)⟩
  simpa [Pool.idle, Node.isIdle, noted, log] using hn

/-- A match pass is a walk over the nodes that are idle at its start. -/
theorem matchPass_walk (hs : s.WellFormed) (judge : Judge) (q k : Nat) :
    Walk judge q s.pool.idle (s.noted q k) (matchPass judge q k s) :=
  matchNodes_walk (ready_noted hs judge q k)

namespace Walk

variable {nodes : List Node} {m : Matched}

/-- A walk that makes no assignment refuses every item at every node. -/
theorem refused (h : Walk judge q nodes s m) (hmade : m.made = []) (hfault : m.fault = none) :
    ∀ n ∈ nodes, ∀ e ∈ (s.queue q).pendingEntrants, Refused judge s q n e := by
  induction h with
  | done h =>
      intro n hn e he
      rcases h with rfl | hnone
      · exact absurd hn List.not_mem_nil
      · exact absurd (hnone ▸ he) List.not_mem_nil
  | failed => cases hfault
  | nobody h _ ih =>
      cases h with
      | nobody halike hk hrefused =>
          refine List.forall_mem_cons.mpr ⟨hrefused, fun n hn e he => ?_⟩
          exact (ih hmade hfault n hn e (halike.queue q ▸ he)).alike halike.symm
  | given => cases hmade

/-- A walk leaves the item pending whose blocker fails. -/
theorem fails (h : Walk judge q nodes s m) {f : Fault} (hf : m.fault = some f) :
    ∃ e ∈ (m.state.queue q).pendingEntrants,
      Answered judge m.state q ⟨q, e.item.id⟩ e.item.blockers (.failed f) := by
  induction h with
  | done => cases hf
  | failed h =>
      cases h with
      | @failed _ _ e before after halike hes _ hanswered =>
          obtain rfl := Option.some.inj hf
          refine ⟨e, ?_, hanswered.alike halike⟩
          rw [halike.queue q, hes]
          exact List.mem_append_right _ List.mem_cons_self
  | nobody _ _ ih => exact ih hf
  | given _ _ _ ih => exact ih hf

end Walk

/-- The moments of a walk over nodes. -/
def nodeMoments (judge : Judge) (q : Nat) : List Node → Scheduler → Answers → List Moment
  | [], _, _ => []
  | n :: ns, s, known =>
    if (s.queue q).pending.isEmpty then []
    else
      match s.select judge q n known (s.queue q).pendingEntrants with
      | (_, .error _) => []
      | (s', .ok (known', none)) => nodeMoments judge q ns s' known'
      | (s', .ok (_, some e)) => ⟨s', n, e⟩ :: nodeMoments judge q ns (s'.assign q n e) []

/-- The moments of a match pass. -/
def passMoments (judge : Judge) (q k : Nat) (s : Scheduler) : List Moment :=
  nodeMoments judge q s.pool.idle (s.noted q k) []

/-- The moments of passes that follow each other. -/
def passesMoments (judge : Judge) (q : Nat) : (limit : Nat) → Nat → Scheduler → List Moment
  | 0, _, _ => []
  | limit + 1, k, s =>
    let m := matchPass judge q k s
    if m.fault.isSome || m.made.isEmpty then passMoments judge q k s
    else passMoments judge q k s ++ passesMoments judge q limit (k + 1) m.state

/-- The moments at which matching makes its assignments. -/
def matchMoments (judge : Judge) (q : Nat) (s : Scheduler) : List Moment :=
  passesMoments judge q ((s.queue q).pending.length + 1) 1 s

/-- A walk assigns the items that it gives to nodes. -/
theorem matchNodes_made (judge : Judge) (q : Nat) (nodes : List Node) (s : Scheduler) (known : Answers) :
    (matchNodes judge q nodes s known).made = (nodeMoments judge q nodes s known).map Moment.id := by
  induction nodes generalizing s known with
  | nil => rfl
  | cons n nodes ih =>
      simp only [matchNodes, nodeMoments]
      split
      case isTrue => rfl
      case isFalse =>
        rcases s.select judge q n known (s.queue q).pendingEntrants with ⟨s', f | ⟨known', _ | e⟩⟩
        · rfl
        · exact ih s' known'
        · exact congrArg (e.item.id :: ·) (ih (s'.assign q n e) [])

/-- A pass assigns the items that it gives to nodes. -/
theorem matchPass_made (judge : Judge) (q k : Nat) (s : Scheduler) :
    (matchPass judge q k s).made = (passMoments judge q k s).map Moment.id :=
  matchNodes_made ..

/-- Passes assign the items that they give to nodes. -/
theorem matchPasses_made (judge : Judge) (q limit k : Nat) (s : Scheduler) :
    (matchPasses judge q limit k s).made = (passesMoments judge q limit k s).map Moment.id := by
  induction limit generalizing k s with
  | zero => rfl
  | succ limit ih =>
      have hpass := matchPass_made judge q k s
      simp only [matchPasses, passesMoments]
      split
      case isTrue => exact hpass
      case isFalse => rw [List.map_append, hpass, ih]

/-- Matching assigns the items of its moments, in this order. -/
theorem matchItems_made (judge : Judge) (q : Nat) (s : Scheduler) :
    (matchItems judge q s).made = (matchMoments judge q s).map Moment.id :=
  matchPasses_made ..

/-- A walk leads to where it ends by the assignments of its moments. -/
theorem matchNodes_assigns {nodes : List Node} {known : Answers} (h : Ready judge q nodes s known) :
    Assigns judge q s (nodeMoments judge q nodes s known) (matchNodes judge q nodes s known).state := by
  induction nodes generalizing s known with
  | nil => exact .stop (.refl s)
  | cons n nodes ih =>
      simp only [matchNodes, nodeMoments]
      split
      case isTrue => exact .stop (.refl s)
      case isFalse =>
        have halike := h.selected.alike
        rcases hselect : s.select judge q n known (s.queue q).pendingEntrants with ⟨s', f | ⟨known', _ | e⟩⟩
        all_goals rw [hselect] at halike
        · exact .stop halike
        · exact (ih (h.passed hselect)).head halike
        · exact .next halike (h.eligible hselect) (ih (h.given hselect))

/-- A pass leads to where it ends by the assignments of its moments. -/
theorem matchPass_assigns (hs : s.WellFormed) (judge : Judge) (q k : Nat) :
    Assigns judge q s (passMoments judge q k s) (matchPass judge q k s).state :=
  (matchNodes_assigns (ready_noted hs judge q k)).head (noted_alike q k s)

/-- A pass that assigns nothing changes the journal and the contacts at most. -/
theorem matchPass_alike (hs : s.WellFormed) {k : Nat} (hmade : (matchPass judge q k s).made = []) :
    Alike s (matchPass judge q k s).state := by
  have hassigns := matchPass_assigns hs judge q k
  rw [List.map_eq_nil_iff.mp ((matchPass_made judge q k s).symm.trans hmade)] at hassigns
  exact hassigns.alike

/-- Passes lead to where they end by the assignments of their moments. -/
theorem matchPasses_assigns (hs : s.WellFormed) (judge : Judge) (q limit k : Nat) :
    Assigns judge q s (passesMoments judge q limit k s) (matchPasses judge q limit k s).state := by
  induction limit generalizing k s with
  | zero => exact .stop (.refl s)
  | succ limit ih =>
      have hpass := matchPass_assigns hs judge q k
      simp only [matchPasses, passesMoments]
      split
      case isTrue => exact hpass
      case isFalse => exact hpass.append (ih (hpass.wellFormed hs) (k + 1))

/-- Matching leads to where it ends by the assignments of its moments. -/
theorem matchItems_assigns (hs : s.WellFormed) (judge : Judge) (q : Nat) :
    Assigns judge q s (matchMoments judge q s) (matchItems judge q s).state :=
  matchPasses_assigns hs judge q _ 1

/-- Matching that assigns nothing changes the journal and the contacts at most. -/
theorem matchItems_alike (hs : s.WellFormed) (hmade : (matchItems judge q s).made = []) :
    Alike s (matchItems judge q s).state := by
  have hassigns := matchItems_assigns hs judge q
  rw [List.map_eq_nil_iff.mp ((matchItems_made judge q s).symm.trans hmade)] at hassigns
  exact hassigns.alike

/-- How passes follow each other: the first that fails or makes no assignment is the last one. They are counted,
and their numbers begin with `k`. -/
inductive Passes (judge : Judge) (q : Nat) : (k count : Nat) → Scheduler → Matched → Prop where
  | last {k : Nat} {s : Scheduler}
      (h : (matchPass judge q k s).fault ≠ none ∨ (matchPass judge q k s).made = []) :
      Passes judge q k 1 s (matchPass judge q k s)
  | again {k count : Nat} {s : Scheduler} {m : Matched} (hfault : (matchPass judge q k s).fault = none)
      (hmade : (matchPass judge q k s).made ≠ [])
      (hrest : Passes judge q (k + 1) count (matchPass judge q k s).state m) :
      Passes judge q k (count + 1) s { m with made := (matchPass judge q k s).made ++ m.made }

/-- There is one more pass than pending items at the most, so they end before they are too many if more of them
are allowed than there are pending items. -/
theorem matchPasses_passes {limit : Nat} (hs : s.WellFormed) (judge : Judge) (q k : Nat)
    (hlimit : (s.queue q).pending.length < limit) :
    ∃ count ≤ (s.queue q).pending.length + 1, Passes judge q k count s (matchPasses judge q limit k s) := by
  induction limit generalizing s k with
  | zero => exact absurd hlimit (Nat.not_lt_zero _)
  | succ limit ih =>
      simp only [matchPasses]
      split
      case isTrue hend =>
        refine ⟨1, by omega, .last ?_⟩
        simpa only [Bool.or_eq_true, Option.isSome_iff_ne_none, List.isEmpty_iff] using hend
      case isFalse hgo =>
        simp only [Bool.or_eq_true, Option.isSome_iff_ne_none, List.isEmpty_iff, not_or, not_not] at hgo
        have hassigns := matchPass_assigns hs judge q k
        have hlength := hassigns.length_pending
        have hmade : 0 < (passMoments judge q k s).length := by
          rw [← List.length_map Moment.id, ← matchPass_made]
          exact List.length_pos_iff.mpr hgo.2
        obtain ⟨count, hcount, hrest⟩ := ih (hassigns.wellFormed hs) (k + 1) (by omega)
        exact ⟨count + 1, by omega, .again hgo.1 hgo.2 hrest⟩

/-- Matching consists of passes. -/
theorem matchItems_passes (hs : s.WellFormed) (judge : Judge) (q : Nat) :
    ∃ count ≤ (s.queue q).pending.length + 1, Passes judge q 1 count s (matchItems judge q s) :=
  matchPasses_passes hs judge q 1 (Nat.lt_succ_self _)

/-- What matching leaves behind: if no blocker failed every idle node refuses every pending item, and if one did its
item is pending still. -/
structure Exhausted (judge : Judge) (q : Nat) (m : Matched) : Prop where
  refused : m.fault = none → ∀ n ∈ m.state.pool.nodes, n.state = .idle →
    ∀ e ∈ (m.state.queue q).pendingEntrants, Refused judge m.state q n e
  failed : ∀ f, m.fault = some f → ∃ e ∈ (m.state.queue q).pendingEntrants,
    Answered judge m.state q ⟨q, e.item.id⟩ e.item.blockers (.failed f)

/-- Passes exhaust the queue: the last of them finds nothing to assign. -/
theorem Passes.exhausted {k count : Nat} {m : Matched} (hs : s.WellFormed) (h : Passes judge q k count s m) :
    Exhausted judge q m := by
  induction h with
  | @last k s hend =>
      have hwalk := matchPass_walk hs judge q k
      refine ⟨fun hfault n hn hidle e he => ?_, fun f => hwalk.fails⟩
      have hmade := hend.resolve_left (not_not.mpr hfault)
      have halike := matchPass_alike hs hmade
      have hn : n ∈ s.pool.idle := by
        rw [halike.pool] at hn
        simpa [Pool.idle, Node.isIdle] using ⟨hn, hidle⟩
      have hrefused := hwalk.refused hmade hfault n hn e (halike.queue q ▸ he)
      exact (hrefused.alike (noted_alike q k s).symm).alike halike
  | @again k count s m hfault hmade _ ih =>
      have hrest := ih ((matchPass_assigns hs judge q k).wellFormed hs)
      exact ⟨hrest.refused, hrest.failed⟩

/-- Matching goes on until nothing more can be assigned. -/
theorem matchItems_exhausted (hs : s.WellFormed) (judge : Judge) (q : Nat) :
    Exhausted judge q (matchItems judge q s) := by
  obtain ⟨count, -, hpasses⟩ := matchItems_passes hs judge q
  exact hpasses.exhausted hs

end Scheduler

end LabelScheduler
