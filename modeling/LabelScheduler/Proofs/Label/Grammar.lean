import LabelScheduler.Label.Grammar
import LabelScheduler.Proofs.Label.Reading
import LabelScheduler.Registry

/-!
# Reading follows the grammar

What is read by closing waiting operands in the order in which they bind is what the layered grammar derives.
In one direction, a phrase is read as the expression that it stands for, by induction over the phrase. In the
other one, at every moment of a reading the lexemes behind the cursor are those of the open frames and of a
phrase for what was just read, and closing operands makes a longer phrase of two shorter ones.
-/

namespace LabelScheduler

open Cursor

/-- Operands bind just a step tighter than their connective. -/
theorem Connective.precedence_operand (op : Connective) :
    op.operand.precedence + 1 = (Operator.binary op).precedence := by
  cases op <;> rfl

/-- What is in parentheses binds as tightly as an atom. -/
theorem Label.looseness_group (e : Label) : e.group.looseness = 0 := by
  cases e <;> rfl

section Layers

variable {o : Operator} {op : Connective}

mutual

/-- The expression of a phrase binds no looser than its layer. -/
theorem Phrase.looseness_label {o : Operator} : (d : Phrase o) → d.label.looseness ≤ o.precedence
  | .chain op first rest => by
      have hstep := op.precedence_operand
      have hfirst := first.looseness_label
      exact rest.looseness_foldOnto first.label (by omega)
  | .negation _ => Nat.le_refl 1
  | .operand body => Nat.le_succ_of_le body.looseness_label
  | .parentheses body => Nat.le_of_eq body.label.looseness_group
  | .name _ => Nat.le_refl 0

/-- Joining operands of a connective leaves an expression that binds no looser than the connective. -/
theorem Repetition.looseness_foldOnto {op : Connective} : (rest : Repetition op) → (l : Label) →
    l.looseness ≤ (Operator.binary op).precedence →
    (rest.foldOnto l).looseness ≤ (Operator.binary op).precedence
  | .none _, _, hl => hl
  | .more _ _ rest, _, _ => rest.looseness_foldOnto _ (Nat.le_refl _)

end

/-- An operand of a connective binds tighter than the connective. -/
theorem Phrase.looseness_operand_lt (d : Phrase op.operand) :
    d.label.looseness < (Operator.binary op).precedence := by
  have hstep := op.precedence_operand
  have hlabel := d.looseness_label
  omega

end Layers

section Reading

mutual

/-- A phrase is read as the expression that it stands for. -/
theorem Phrase.reads {o : Operator} : (d : Phrase o) → Reads (d.lexemes ++ ·) d.label
  | .chain op first rest => by
      have hread := rest.reads_foldOnto first.reads (Nat.le_of_lt first.looseness_operand_lt)
      simp only [Phrase.lexemes, Phrase.label, List.append_assoc]
      exact hread
  | .negation body => body.reads.not body.looseness_label
  | .operand body => body.reads
  | .parentheses body => by
      have hread := body.reads.group
      simp only [Phrase.lexemes, Phrase.label, List.cons_append, List.append_assoc, List.nil_append]
      exact hread
  | .name n => .atom n

/-- Further operands are read onto what was read before them. -/
theorem Repetition.reads_foldOnto {op : Connective} : (rest : Repetition op) →
    {w : List Lexeme → List Lexeme} → {l : Label} → Reads w l →
    l.looseness ≤ (Operator.binary op).precedence →
      Reads (fun after => w (rest.lexemes ++ after)) (rest.foldOnto l)
  | .none _, _, _, h, _ => h
  | .more op next rest, w, l, h, hl => by
      have hnode := h.binary next.reads hl next.looseness_operand_lt
      have hread := rest.reads_foldOnto hnode (Nat.le_refl _)
      simp only [Repetition.lexemes, Repetition.foldOnto, List.cons_append, List.append_assoc]
      exact hread

end

end Reading

section Canonical

mutual

/-- The expression of a phrase is canonical. -/
theorem Phrase.canonical_label {o : Operator} : (d : Phrase o) → d.label.Canonical
  | .chain op first rest =>
      rest.canonical_foldOnto first.canonical_label (Nat.le_of_lt first.looseness_operand_lt)
  | .negation body => ⟨Label.looseness_le_iff.mp body.looseness_label, body.canonical_label⟩
  | .operand body => body.canonical_label
  | .parentheses body => (Label.canonical_enclose true body.label).mpr body.canonical_label
  | .name _ => trivial

/-- Joining operands of a connective to a canonical expression leaves a canonical one. -/
theorem Repetition.canonical_foldOnto {op : Connective} : (rest : Repetition op) → {l : Label} → l.Canonical →
    l.looseness ≤ (Operator.binary op).precedence → (rest.foldOnto l).Canonical
  | .none _, _, hl, _ => hl
  | .more _ next rest, _, hl, hloose =>
      rest.canonical_foldOnto
        ⟨⟨Label.looseness_le_iff.mp hloose, hl⟩, Label.looseness_lt_iff.mp next.looseness_operand_lt,
          next.canonical_label⟩
        (Nat.le_refl _)

end

end Canonical

section Grouped

/-- Joining operands leaves nothing that is grouped as a whole. -/
theorem Repetition.grouped_foldOnto {op : Connective} (rest : Repetition op) {l : Label} (hl : l.grouped = false) :
    (rest.foldOnto l).grouped = false :=
  match rest with
  | .none _ => hl
  | .more _ _ rest => rest.grouped_foldOnto rfl

/-- The expression of a phrase is grouped exactly if the phrase stands in parentheses. -/
theorem Phrase.grouped_label {o : Operator} (d : Phrase o) : d.label.grouped = d.isEnclosed :=
  match d with
  | .chain _ first (.none _) => first.grouped_label
  | .chain _ _ (.more _ _ rest) => rest.grouped_foldOnto rfl
  | .negation _ => rfl
  | .operand body => body.grouped_label
  | .parentheses body => Label.grouped_enclose true body.label
  | .name _ => rfl

end Grouped

section Names

mutual

/-- The atoms of the expression of a phrase are among its lexemes. -/
theorem Phrase.ofName_mem {o : Operator} : (d : Phrase o) → ∀ n ∈ d.label.atomNames, .ofName n ∈ d.lexemes
  | .chain op first rest => by
      intro n hn
      rcases rest.ofName_mem first.label n hn with hfirst | hrest
      · exact List.mem_append_left _ (first.ofName_mem n hfirst)
      · exact List.mem_append_right _ hrest
  | .negation body => fun n hn => List.mem_cons_of_mem _ (body.ofName_mem n hn)
  | .operand body => body.ofName_mem
  | .parentheses body => by
      intro n hn
      have hatoms : (Label.enclose true body.label).atomNames = body.label.atomNames :=
        Label.atomNames_enclose true body.label
      have hbody := body.ofName_mem n (hatoms ▸ hn)
      exact List.mem_append_left _ (List.mem_cons_of_mem _ hbody)
  | .name m => by
      intro n hn
      rw [List.mem_singleton.mp hn]
      exact List.mem_singleton_self _

/-- The atoms that joining operands adds are among the lexemes of the operands. -/
theorem Repetition.ofName_mem {op : Connective} : (rest : Repetition op) → ∀ l, ∀ n ∈ (rest.foldOnto l).atomNames,
    n ∈ l.atomNames ∨ .ofName n ∈ rest.lexemes
  | .none _ => fun _ _ hn => .inl hn
  | .more op next rest => by
      intro l n hn
      rcases rest.ofName_mem _ n hn with hnode | hrest
      · rcases List.mem_append.mp hnode with hl | hnext
        · exact .inl hl
        · exact .inr (List.mem_append_left _ (List.mem_cons_of_mem _ (next.ofName_mem n hnext)))
      · exact .inr (List.mem_append_right _ hrest)

end

end Names

/-- The lexemes are those of a phrase that binds no looser than `p` says, and the phrase stands for `e`. -/
def Derives (p : Nat) (xs : List Lexeme) (e : Label) : Prop :=
  ∃ o : Operator, o.precedence ≤ p ∧ ∃ d : Phrase o, d.lexemes = xs ∧ d.label = e

namespace Derives

variable {p : Nat} {xs ys : List Lexeme} {e l r : Label} {op : Connective}

/-- A phrase is one of its own layer. -/
theorem of_phrase {o : Operator} (d : Phrase o) : Derives o.precedence d.lexemes d.label :=
  ⟨o, Nat.le_refl _, d, rfl, rfl⟩

/-- A phrase of a layer counts in the looser ones. -/
theorem mono {p' : Nat} (h : Derives p xs e) (hp : p ≤ p') : Derives p' xs e := by
  obtain ⟨o, ho, hd⟩ := h
  exact ⟨o, Nat.le_trans ho hp, hd⟩

/-- A phrase of a tighter layer is one of the layer of `o` as well. -/
theorem exists_phrase (o : Operator) (h : Derives o.precedence xs e) :
    ∃ d : Phrase o, d.lexemes = xs ∧ d.label = e := by
  -- a layer takes up what the next tighter one has already taken up
  have hup {a b : Operator} (hstep : a.precedence + 1 = b.precedence)
      (hlift : ∀ d : Phrase a, ∃ d' : Phrase b, d'.lexemes = d.lexemes ∧ d'.label = d.label)
      (ha : Derives a.precedence xs e → ∃ d : Phrase a, d.lexemes = xs ∧ d.label = e)
      (hb : Derives b.precedence xs e) : ∃ d : Phrase b, d.lexemes = xs ∧ d.label = e := by
    obtain ⟨o, ho, d, hd⟩ := hb
    rcases Nat.lt_or_eq_of_le ho with hlt | heq
    · obtain ⟨d', hlexemes, hlabel⟩ := ha ⟨o, by omega, d, hd⟩
      obtain ⟨d'', hlexemes', hlabel'⟩ := hlift d'
      exact ⟨d'', hlexemes'.trans hlexemes, hlabel'.trans hlabel⟩
    · obtain rfl := Operator.precedence_inj heq
      exact ⟨d, hd⟩
  have hchain (op : Connective) (d : Phrase op.operand) :
      ∃ d' : Phrase (.binary op), d'.lexemes = d.lexemes ∧ d'.label = d.label :=
    ⟨.chain op d (.none op), List.append_nil _, rfl⟩
  have hatom (h : Derives Operator.atom.precedence xs e) : ∃ d : Phrase .atom, d.lexemes = xs ∧ d.label = e := by
    obtain ⟨o, ho, d, hd⟩ := h
    obtain rfl : o = .atom := Operator.precedence_inj (Nat.le_zero.mp ho)
    exact ⟨d, hd⟩
  have hnot := hup (a := .atom) (b := .not) rfl (fun d => ⟨.operand d, rfl, rfl⟩) hatom
  have hand := hup (b := .binary .and) rfl (hchain .and) hnot
  have hor := hup (b := .binary .or) rfl (hchain .or) hand
  have himplies := hup (b := .binary .implies) rfl (hchain .implies) hor
  have hiff := hup (b := .binary .iff) rfl (hchain .iff) himplies
  cases o with
  | atom => exact hatom h
  | not => exact hnot h
  | binary op => cases op with
    | and => exact hand h
    | or => exact hor h
    | implies => exact himplies h
    | iff => exact hiff h

/-- An atom is a phrase. -/
theorem name (n : String) : Derives 0 [.ofName n] (.atom n false) := of_phrase (.name n)

/-- A negation of a phrase that binds tightly enough is a phrase. -/
theorem not (h : Derives 1 xs e) : Derives 1 (.bang :: xs) (.not e false) := by
  obtain ⟨d, rfl, rfl⟩ := h.exists_phrase .not
  exact of_phrase (.negation d)

/-- A phrase in parentheses is a phrase. -/
theorem group (h : Derives 5 xs e) : Derives 0 (.opening :: xs ++ [.closing]) e.group := by
  obtain ⟨d, rfl, rfl⟩ := h.exists_phrase (.binary .iff)
  exact of_phrase (.parentheses d)

end Derives

namespace Repetition

variable {op : Connective}

/-- One more operand at the end. -/
def snoc : Repetition op → Phrase op.operand → Repetition op
  | .none _, last => .more _ last (.none _)
  | .more _ next rest, last => .more _ next (rest.snoc last)

/-- The last operand comes last. -/
theorem lexemes_snoc (rest : Repetition op) (last : Phrase op.operand) :
    (rest.snoc last).lexemes = rest.lexemes ++ .ofConnective op :: last.lexemes :=
  match rest with
  | .none _ => by simp [snoc, lexemes]
  | .more _ _ rest => by simp [snoc, lexemes, rest.lexemes_snoc last]

/-- The last operand is joined last. -/
theorem foldOnto_snoc (rest : Repetition op) (last : Phrase op.operand) (l : Label) :
    (rest.snoc last).foldOnto l = .binary op (rest.foldOnto l) last.label false :=
  match rest with
  | .none _ => rfl
  | .more _ _ rest => rest.foldOnto_snoc last _

end Repetition

/-- A phrase of the layer of a connective can be followed by one more operand. -/
theorem Derives.binary {p : Nat} {xs ys : List Lexeme} {l r : Label} {op : Connective}
    (hl : Derives (Operator.binary op).precedence xs l) (hr : Derives p ys r)
    (hp : p < (Operator.binary op).precedence) :
    Derives (Operator.binary op).precedence (xs ++ .ofConnective op :: ys) (.binary op l r false) := by
  have hstep := op.precedence_operand
  obtain ⟨d, rfl, rfl⟩ := hl.exists_phrase (.binary op)
  have hr' : Derives op.operand.precedence ys r := hr.mono (by omega)
  obtain ⟨last, rfl, rfl⟩ := hr'.exists_phrase op.operand
  cases d with
  | chain op first rest =>
      refine ⟨.binary op, Nat.le_refl _, .chain op first (rest.snoc last), ?_, ?_⟩
      · rw [Phrase.lexemes, Phrase.lexemes, rest.lexemes_snoc, List.append_assoc]
      · rw [Phrase.label, Phrase.label, rest.foldOnto_snoc]

namespace Cursor

variable {c c' : Cursor} {p : Nat} {xs ys : List Lexeme} {e : Label} {op : Connective} {fs : List Frame}

/-- The frames were opened by the lexemes: waiting operands are phrases of their layers, and each connective
binds tighter than the frame below it allows. -/
inductive Opened : List Frame → List Lexeme → Prop where
  | nil : Opened [] []
  | opening {fs : List Frame} {xs : List Lexeme} (h : Opened fs xs) : Opened (.opening :: fs) (xs ++ [.opening])
  | negation {fs : List Frame} {xs : List Lexeme} (h : Opened fs xs) : Opened (.negation :: fs) (xs ++ [.bang])
  | operand {fs : List Frame} {xs ys : List Lexeme} {op : Connective} {l : Label} (h : Opened fs xs)
      (hl : Derives (Operator.binary op).precedence ys l) (hroom : (Operator.binary op).precedence < room fs) :
      Opened (.operand op l :: fs) (xs ++ (ys ++ [.ofConnective op]))

/-- The lexemes behind the cursor opened its frames and, after that, derive what was just read, with all its
negations applied. -/
def Behind (c : Cursor) (xs : List Lexeme) : Prop :=
  match c.read with
  | none => Opened c.frames xs
  | some e => ∃ ys zs, xs = ys ++ zs ∧ Opened c.frames ys ∧ Derives 1 zs e ∧ c.frames.head? ≠ some .negation

/-- Nothing is behind the cursor at the beginning. -/
theorem initial_behind : initial.Behind [] := Opened.nil

/-- There is room for a tight expression on all frames. -/
theorem one_lt_room (fs : List Frame) : 1 < room fs := by
  fun_cases room fs with
  | case1 op l fs => exact op.two_le_precedence
  | case2 fs => decide
  | case3 fs _ _ => decide

/-- An operand behind open frames is taken up together with the negations before it. -/
theorem operandRead_behind (hfs : Opened fs xs) (he : Derives 1 ys e) : (operandRead e fs).Behind (xs ++ ys) := by
  induction hfs generalizing ys e with
  | nil => exact ⟨_, _, rfl, .nil, he, nofun⟩
  | opening h _ => exact ⟨_, _, rfl, .opening h, he, nofun⟩
  | negation h ih =>
      have hnegated := ih he.not
      rw [List.append_assoc]
      exact hnegated
  | operand h hl hroom _ => exact ⟨_, _, rfl, .operand h hl hroom, he, nofun⟩

/-- Closing operands for a connective leaves a phrase of its layer, behind frames that have room for it. -/
theorem closeFor_behind (hfs : Opened fs xs) (he : Derives p ys e) (hop : p ≤ (Operator.binary op).precedence)
    (hroom : p < room fs) (hhead : fs.head? ≠ some .negation) :
    ∃ xs' ys', xs ++ ys = xs' ++ ys' ∧ Opened (closeFor op e fs).1 xs' ∧
      Derives (Operator.binary op).precedence ys' (closeFor op e fs).2 ∧
      (Operator.binary op).precedence < room (closeFor op e fs).1 := by
  induction hfs generalizing p ys e with
  | nil => exact ⟨_, _, rfl, .nil, he.mono hop, Operator.precedence_lt _⟩
  | opening h _ => exact ⟨_, _, rfl, .opening h, he.mono hop, Operator.precedence_lt _⟩
  | negation h _ => exact absurd rfl hhead
  | @operand fs xs zs o l h hl hroom' ih =>
      rw [closeFor]
      cases hbinds : o.bindsBefore op with
      | true =>
          obtain ⟨xs', ys', happend, hclosed⟩ :=
            ih (hl.binary he hroom) (of_decide_eq_true hbinds) hroom' (head?_ne_negation hroom')
          refine ⟨xs', ys', ?_, hclosed⟩
          rw [← happend]
          simp only [List.append_assoc, List.cons_append, List.nil_append]
      | false =>
          exact ⟨_, _, rfl, .operand h hl hroom', he.mono hop, Nat.lt_of_not_le (of_decide_eq_false hbinds)⟩

/-- Closing all operands leaves a phrase, behind frames that end at a parenthesis, a negation or nothing. -/
theorem closeAll_behind (hfs : Opened fs xs) (he : Derives p ys e) (hp : p ≤ 5) (hroom : p < room fs) :
    ∃ xs' ys', xs ++ ys = xs' ++ ys' ∧ Opened (closeAll e fs).1 xs' ∧ Derives 5 ys' (closeAll e fs).2 := by
  induction hfs generalizing p ys e with
  | nil => exact ⟨_, _, rfl, .nil, he.mono hp⟩
  | opening h _ => exact ⟨_, _, rfl, .opening h, he.mono hp⟩
  | negation h _ => exact ⟨_, _, rfl, .negation h, he.mono hp⟩
  | @operand fs xs zs o l h hl hroom' ih =>
      obtain ⟨xs', ys', happend, hclosed⟩ :=
        ih (hl.binary he hroom) (Nat.le_of_lt_succ (Operator.precedence_lt _)) hroom'
      refine ⟨xs', ys', ?_, hclosed⟩
      rw [← happend]
      simp only [List.append_assoc, List.cons_append, List.nil_append]

/-- Moving over a lexeme leaves it behind the cursor. -/
theorem step_behind (hc : c.Behind xs) {x : Lexeme} (hx : x.Written) (h : c.step ⟨x.kind, x.chars, 0⟩ = some c') :
    c'.Behind (xs ++ [x]) := by
  unfold Behind at hc
  cases step_moved h with
  | atom hread hkind =>
      simp only [hread] at hc
      cases hx with
      | @name n _ =>
          have htext : (Token.text ⟨.atom, n.toList, 0⟩) = n := String.ofList_toList
          have hname := operandRead_behind hc ((Derives.name n).mono (Nat.zero_le 1))
          change (operandRead (.atom (Token.text ⟨.atom, n.toList, 0⟩) false) c.frames).Behind _
          rw [htext]
          exact hname
      | _ => cases hkind
  | negation hread hkind =>
      simp only [hread] at hc
      cases hx with
      | bang => exact .negation hc
      | _ => cases hkind
  | opening hread hkind =>
      simp only [hread] at hc
      cases hx with
      | opening => exact .opening hc
      | _ => cases hkind
  | @connective e op hread hkind =>
      simp only [hread] at hc
      obtain ⟨ys, zs, rfl, hopened, he, hhead⟩ := hc
      obtain ⟨xs', ys', happend, hfs, hl, hroom⟩ :=
        closeFor_behind hopened he (Nat.le_of_succ_le op.two_le_precedence) (one_lt_room _) hhead
      cases hx with
      | connective op' =>
          obtain rfl : op' = op := TokenKind.connective.inj hkind
          rw [happend, List.append_assoc]
          exact .operand hfs hl hroom
      | _ => cases hkind
  | @closing e whole fs hread hkind hclosed =>
      simp only [hread] at hc
      obtain ⟨ys, zs, rfl, hopened, he, -⟩ := hc
      obtain ⟨xs', ys', happend, hfs, hwhole⟩ := closeAll_behind hopened he (by decide) (one_lt_room _)
      rw [hclosed] at hfs hwhole
      cases hx with
      | closing =>
          cases hfs with
          | @opening _ xs' hfs =>
              have hgroup := operandRead_behind hfs (hwhole.group.mono (Nat.zero_le 1))
              rw [happend]
              simpa only [List.append_assoc, List.cons_append, List.nil_append] using hgroup
      | _ => cases hkind

/-- Moving over lexemes leaves them behind the cursor. -/
theorem along_behind (hc : c.Behind xs) (hys : ∀ y ∈ ys, y.Written) (h : c.along ys = some c') :
    c'.Behind (xs ++ ys) := by
  induction ys generalizing c xs with
  | nil =>
      rw [List.append_nil]
      exact Option.some.inj h ▸ hc
  | cons y ys ih =>
      rw [List.forall_mem_cons] at hys
      obtain ⟨d, hstep, hrest⟩ := Option.bind_eq_some_iff.mp h
      have hall := ih (step_behind hc hys.1 hstep) hys.2 hrest
      rwa [List.append_assoc] at hall

/-- Where a reading may end, the lexemes behind the cursor derive what it ends with. -/
theorem finish_behind (hc : c.Behind xs) (h : c.finish = some e) : Derives 5 xs e := by
  unfold Behind at hc
  cases hread : c.read with
  | none => simp [finish, hread] at h
  | some x =>
      simp only [hread] at hc
      obtain ⟨ys, zs, rfl, hopened, he, -⟩ := hc
      obtain ⟨xs', ys', happend, hfs, hwhole⟩ := closeAll_behind hopened he (by decide) (one_lt_room _)
      simp only [finish, hread] at h
      split at h
      case h_1 whole hclosed =>
        rw [hclosed] at hfs hwhole
        cases hfs
        rw [happend, ← Option.some.inj h]
        exact hwhole
      case h_2 => cases h

end Cursor

/-- A text is read as an expression exactly if it is not blank, has no illegal character, and its lexemes are
those of a phrase that stands for the expression. -/
theorem parseLabel_eq_ok_iff {s : String} {e : Label} :
    parseLabel s = .ok e ↔ Text.isBlankText s = false ∧ (scan s.toList).illegal = none ∧
      ∃ d : Phrase (.binary .iff), d.lexemes = (scan s.toList).tokens.map Token.lexeme ∧ d.label = e := by
  have hwritten := (scanFrom_written 0 s.toList).lexemes
  rw [parseLabel, readLabel]
  cases hblank : Text.isBlankText s with
  | true => simp
  | false =>
      simp only [Bool.false_eq_true, if_false, readFrom_eq_ok_iff, true_and]
      apply and_congr_right
      intro _
      constructor
      · intro hread
        obtain ⟨c, hover, hfinish⟩ := Option.bind_eq_some_iff.mp hread
        exact (finish_behind (along_behind initial_behind hwritten hover) hfinish).exists_phrase (.binary .iff)
      · rintro ⟨d, hlexemes, rfl⟩
        have hread := d.reads.bind_finish
        rw [List.append_nil, hlexemes] at hread
        exact hread

/-- Reading gives an expression exactly if the text is not blank, has no illegal character, and its tokens
derive from the grammar. The expression is then the one that the derivation stands for, and whatever the
registry, its grouped parts are those that stand in parentheses. -/
theorem Registry.parse_eq_ok_iff (r : Registry) (s : String) :
    (∀ e, (r.parse s).2 = .ok e ↔ Text.isBlankText s = false ∧ (scan s.toList).illegal = none ∧
      ∃ d : Phrase (.binary .iff), d.lexemes = (scan s.toList).tokens.map Token.lexeme ∧ d.label = e) ∧
    ∀ (o : Operator) (d : Phrase o), d.label.grouped = d.isEnclosed :=
  ⟨fun _ => parseLabel_eq_ok_iff, fun _ d => d.grouped_label⟩

end LabelScheduler
