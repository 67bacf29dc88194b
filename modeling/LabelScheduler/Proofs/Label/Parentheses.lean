import LabelScheduler.Proofs.Label.RoundTrip
import LabelScheduler.Proofs.Label.Stance
import LabelScheduler.Proofs.Label.Typed

/-!
# No pair of parentheses can be spared

Two expressions are the same but for their marks and for how their conjunctions and disjunctions lean if they have
the same normal form, without marks and leaning to the left. Turning an associative node over does not change how
many pairs of parentheses are written, and leaving out the marks makes them no more. So an expression without marks
is written with as many pairs as its normal form, and what is read from a text has a normal form that needs no more
pairs than the text has. A text with one pair less is therefore read as something else, if it is read at all; and it
is read, as what stood between the parentheses is read in the same way without them, only less deep.
-/

namespace LabelScheduler

namespace Label

variable {e l r : Label} {op : Connective} {parent : Operator}

/-- No part of the expression is marked as written in parentheses. -/
def Unmarked (e : Label) : Prop := ∀ part ∈ e.walk, part.grouped = false

instance (e : Label) : Decidable e.Unmarked := inferInstanceAs (Decidable (∀ _ ∈ _, _))

/-- The expression without its marks, and with its conjunctions and disjunctions leaning to the left. -/
def normal : Label → Label
  | .atom n _ => .atom n false
  | .not b _ => .not b.normal false
  | .binary op l r _ => if op.keepsRight then .binary op l.normal r.normal false else graft op l.normal r.normal

/-- How many pairs of parentheses the expression is written with. -/
def pairs : Label → Nat
  | .atom _ g => g.toNat
  | .not b g => g.toNat + ((needsParens .not false b).toNat + b.pairs)
  | .binary op l r g =>
    g.toNat + ((needsParens (.binary op) false l).toNat + l.pairs + ((needsParens (.binary op) true r).toNat + r.pairs))

/-- An expression is one of its parts. -/
theorem mem_walk (e : Label) : e ∈ e.walk := by
  cases e <;> exact List.mem_cons_self

section Normal

/-- Grafting twice to the left is grafting what was grafted. -/
theorem graft_assoc (op : Connective) (a b c : Label) : graft op (graft op a b) c = graft op a (graft op b c) := by
  fun_induction graft op b c with
  | case1 c d ih => simp only [graft, if_true, ih]
  | case2 o c d hne => simp only [graft, if_neg hne, if_true]
  | case3 c hnode => simp only [graft, if_true]

/-- The normal form has the same operator. -/
@[simp] theorem operator_normal (e : Label) : e.normal.operator = e.operator := by
  cases e with
  | atom n g => rfl
  | not b g => rfl
  | binary op l r g =>
      rw [normal]
      split
      case isTrue => rfl
      case isFalse => exact (graft_isBare ..).1

/-- The normal form is not marked. -/
@[simp] theorem grouped_normal (e : Label) : e.normal.grouped = false := by
  cases e with
  | atom n g => rfl
  | not b g => rfl
  | binary op l r g =>
      rw [normal]
      split
      case isTrue => rfl
      case isFalse => exact (graft_isBare ..).2

/-- Parentheses around the whole do not matter for the normal form. -/
@[simp] theorem normal_enclose (p : Bool) (e : Label) : (enclose p e).normal = e.normal := by
  cases p with
  | false => rfl
  | true => cases e <;> rfl

/-- The normal form of a graft is that of the node. -/
theorem normal_graft (h : op.keepsRight = true → ¬ IsBare op r) (l : Label) :
    (graft op l r).normal = (Label.binary op l r false).normal := by
  cases hkeeps : op.keepsRight with
  | true => rw [graft_of_not_isBare (h hkeeps)]
  | false =>
      clear h
      fun_induction graft op l r with
      | case1 a b ih => simp only [normal, hkeeps, Bool.false_eq_true, if_false, ih, graft_assoc]
      | case2 => rfl
      | case3 => rfl

/-- Turning over a node of an associative connective does not change the normal form. -/
theorem normal_rotate (h : op.keepsRight = false) (a b c : Label) (g g' : Bool) :
    (Label.binary op a (.binary op b c g') g).normal = (Label.binary op (.binary op a b g') c g).normal := by
  simp only [normal, h, Bool.false_eq_true, if_false, graft_assoc]

/-- The normal form means the same. -/
theorem holds_normal (has : String → Bool) (e : Label) : e.normal.holds has = e.holds has := by
  induction e with
  | atom n g => rfl
  | not b g ih => exact congrArg (!·) ih
  | binary op l r g ihl ihr =>
      rw [normal, holds, ← ihl, ← ihr]
      split
      case isTrue => rfl
      case isFalse hkeeps => exact holds_graft fun htrue => absurd htrue hkeeps

/-- An expression is read from its written form with the same normal form. -/
theorem normal_reread (e : Label) : e.reread.normal = e.normal := by
  induction e with
  | atom n g => rfl
  | not b g ih => rw [reread, normal, normal_enclose, ih, normal]
  | binary op l r g ihl ihr =>
      have hbare := (needsParens_right.mp (needsParens_reread (.binary op) true r)).2
      rw [reread, normal_enclose, normal_graft hbare, normal, normal_enclose, normal_enclose, ihl, ihr, normal]

end Normal

section Pairs

/-- Parentheses are written around what needs them, and around nothing else. -/
theorem count_parenthesizedIf {inner : List Lexeme → List Lexeme} {n : Nat}
    (hinner : ∀ after, (inner after).count .opening = n + after.count .opening) (p : Bool) (after : List Lexeme) :
    (parenthesizedIf p inner after).count .opening = p.toNat + n + after.count .opening := by
  cases p with
  | false => simpa [parenthesizedIf] using hinner after
  | true =>
      have hinside := hinner (.closing :: after)
      simp only [parenthesizedIf, if_true, List.count_cons_self, hinside]
      rw [List.count_cons_of_ne (by decide), Bool.toNat_true]
      omega

/-- The pairs of parentheses are counted by the opening ones. -/
theorem count_lexemesThen (e : Label) (after : List Lexeme) :
    (e.lexemesThen after).count .opening = e.pairs + after.count .opening := by
  induction e generalizing after with
  | atom n g =>
      have hname (after : List Lexeme) : (Lexeme.ofName n :: after).count .opening = 0 + after.count .opening := by
        rw [List.count_cons_of_ne (by simp [Lexeme.ofName, Lexeme.opening]), Nat.zero_add]
      exact count_parenthesizedIf hname g after
  | not b g ih =>
      refine (count_parenthesizedIf (fun after => ?_) g after)
      rw [List.count_cons_of_ne (by decide), count_parenthesizedIf ih]
  | binary op l r g ihl ihr =>
      refine (count_parenthesizedIf (fun after => ?_) g after)
      rw [count_parenthesizedIf ihl, List.count_cons_of_ne (Lexeme.ofConnective_ne op).2, count_parenthesizedIf ihr,
        ← Nat.add_assoc]

/-- An expression is written with as many opening parentheses as it has pairs. -/
theorem count_lexemes (e : Label) : e.lexemes.count .opening = e.pairs := e.count_lexemesThen []

/-- Turning nodes of an associative connective over leaves the number of pairs as it is. -/
theorem pairs_graft (h : op.keepsRight = false) (l r : Label) :
    (graft op l r).pairs = (Label.binary op l r false).pairs := by
  fun_induction graft op l r with
  | case1 a b ih =>
      have hgraft : needsParens (.binary op) false (graft op l a) = false := by
        simp [needsParens, (graft_isBare op l a).1]
      have hright : needsParens (.binary op) true (.binary op a b false) = false := by
        simp [needsParens, operator, grouped, h]
      have hsame : needsParens (.binary op) true a = needsParens (.binary op) false a := by
        simp [needsParens, h]
      simp only [pairs, hgraft, hright, hsame, ih, Bool.toNat_false]
      omega
  | case2 => rfl
  | case3 => rfl

/-- An operand without its marks needs no more parentheses than it had or needed. -/
theorem needsParens_normal_le (parent : Operator) (right : Bool) (e : Label) :
    (needsParens parent right e.normal).toNat ≤ (needsParens parent right e).toNat + e.grouped.toNat := by
  cases hgrouped : e.grouped with
  | true =>
      have hle := Bool.toNat_le (needsParens parent right e.normal)
      rw [Bool.toNat_true]
      omega
  | false =>
      rw [needsParens_congr (operator_normal e) ((grouped_normal e).trans hgrouped.symm)]
      exact Nat.le_add_right _ _

/-- The normal form of a node is written with as many pairs as a node of the normal forms. -/
theorem pairs_normal_binary (op : Connective) (l r : Label) (g : Bool) :
    (Label.binary op l r g).normal.pairs = (Label.binary op l.normal r.normal false).pairs := by
  rw [normal]
  split
  case isTrue => rfl
  case isFalse hkeeps => exact pairs_graft (Bool.eq_false_iff.mpr hkeeps) _ _

/-- The normal form is written with no more pairs, and with one pair less if the whole was marked. -/
theorem pairs_normal_le (e : Label) : e.normal.pairs + e.grouped.toNat ≤ e.pairs := by
  induction e with
  | atom n g => exact Nat.le_of_eq (Nat.zero_add _)
  | not b g ih =>
      have hneeds := needsParens_normal_le .not false b
      simp only [normal, pairs, grouped, Bool.toNat_false]
      omega
  | binary op l r g ihl ihr =>
      have hleft := needsParens_normal_le (.binary op) false l
      have hright := needsParens_normal_le (.binary op) true r
      rw [pairs_normal_binary]
      simp only [pairs, grouped, Bool.toNat_false]
      omega

/-- The normal form of an expression without marks is written with as many pairs. -/
theorem Unmarked.pairs_normal (he : e.Unmarked) : e.normal.pairs = e.pairs := by
  induction e with
  | atom n g =>
      obtain rfl : g = false := he _ (List.mem_singleton_self _)
      rfl
  | not b g ih =>
      obtain ⟨hg, hb⟩ := List.forall_mem_cons.mp he
      have hneeds := needsParens_congr (operator_normal b) ((grouped_normal b).trans (hb _ b.mem_walk).symm)
      obtain rfl : g = false := hg
      rw [normal, pairs, pairs, hneeds, ih hb]
  | binary op l r g ihl ihr =>
      obtain ⟨hg, hoperands⟩ := List.forall_mem_cons.mp he
      obtain ⟨hl, hr⟩ := List.forall_mem_append.mp hoperands
      have hleft := needsParens_congr (operator_normal l) ((grouped_normal l).trans (hl _ l.mem_walk).symm)
      have hright := needsParens_congr (operator_normal r) ((grouped_normal r).trans (hr _ r.mem_walk).symm)
      obtain rfl : g = false := hg
      rw [pairs_normal_binary, pairs, pairs, hleft, hright, ihl hl, ihr hr]

end Pairs

end Label

namespace Nesting

/-- Dropping doubled parentheses leaves no more of them. -/
theorem count_undoubled_le (n : Nesting) : n.undoubled.count .opening ≤ n.lexemes.count .opening := by
  induction n with
  | nil => exact Nat.le_refl _
  | plain x rest ih =>
      simp only [undoubled, lexemes, List.count_cons]
      omega
  | pair inside rest ihi ihr =>
      simp only [undoubled, lexemes]
      split
      case isTrue =>
        simp only [List.cons_append, List.count_cons_self, List.count_append, List.count_cons]
        omega
      case isFalse =>
        simp only [List.cons_append, List.count_cons_self, List.count_append, List.count_cons]
        omega

end Nesting

/-- What is read from a text is, in its normal form, written with no more pairs than the text has. -/
theorem pairs_normal_of_parseLabel {s : String} {e : Label} (h : parseLabel s = .ok e) :
    e.normal.pairs ≤ (lexemesOf s).count .opening := by
  obtain ⟨n, hn, hlexemes⟩ := parseLabel_undoubled h
  calc e.normal.pairs
    _ ≤ e.pairs := Nat.le_of_add_right_le e.pairs_normal_le
    _ = n.undoubled.count .opening := by rw [← e.count_lexemes, hlexemes]
    _ ≤ n.lexemes.count .opening := n.count_undoubled_le
    _ = (lexemesOf s).count .opening := by rw [Nesting.lexemes_of_ofLexemes hn]

/-- The number of open parentheses behind a text that begins with `n` open ones, if it closes no others. -/
def depthAfter (n : Nat) : List Char → Option Nat
  | [] => some n
  | c :: cs =>
    if c = '(' then depthAfter (n + 1) cs
    else if c = ')' then if n = 0 then none else depthAfter (n - 1) cs
    else depthAfter n cs

/-- Each parenthesis in the text has its match in the text. -/
def Balanced (cs : List Char) : Prop := depthAfter 0 cs = some 0

instance (cs : List Char) : Decidable (Balanced cs) := inferInstanceAs (Decidable (_ = _))

section Pair

open Lexeme

variable {xs A B C : List Lexeme} {a rest : List Char}

/-- A text without parentheses opens and closes none. -/
theorem depthAfter_append {cs : List Char} (hcs : ∀ c ∈ cs, c ≠ '(' ∧ c ≠ ')') (n : Nat) (rest : List Char) :
    depthAfter n (cs ++ rest) = depthAfter n rest := by
  induction cs with
  | nil => rfl
  | cons c cs ih =>
      rw [List.forall_mem_cons] at hcs
      rw [List.cons_append, depthAfter, if_neg hcs.1.1, if_neg hcs.1.2, ih hcs.2]

/-- No other lexeme than the parentheses is written with them. -/
theorem Lexeme.Written.no_parenthesis {x : Lexeme} (hx : x.Written) (hne : x ≠ .opening ∧ x ≠ .closing) :
    ∀ c ∈ x.chars, c ≠ '(' ∧ c ≠ ')' := by
  have hsign (hall : x.chars.all fun c => c != '(' && c != ')') : ∀ c ∈ x.chars, c ≠ '(' ∧ c ≠ ')' := by
    simpa using hall
  cases hx with
  | @name n hn =>
      intro c hc
      have hall : n.toList.all isAtomChar = true := (Bool.and_eq_true_iff.mp hn).2
      have hchar := List.all_eq_true.mp hall c hc
      constructor
      · rintro rfl
        cases hchar.symm.trans (isAtomChar_border (by simp [borderChars]))
      · rintro rfl
        cases hchar.symm.trans (isAtomChar_border (by simp [borderChars]))
  | bang => exact hsign rfl
  | opening => exact absurd rfl hne.1
  | closing => exact absurd rfl hne.2
  | connective op => cases op <;> exact hsign rfl

/-- Where a sign is found in the text of lexemes, it is one of the lexemes, if it is in no other. -/
theorem exists_lexeme_of_flatMap {x : Lexeme} {c : Char} (hx : x.chars = [c])
    (hother : ∀ y : Lexeme, y.Written → y ≠ x → c ∉ y.chars) (hxs : ∀ y ∈ xs, y.Written)
    (h : xs.flatMap (·.chars) = a ++ c :: rest) :
    ∃ A C, xs = A ++ x :: C ∧ A.flatMap (·.chars) = a ∧ C.flatMap (·.chars) = rest := by
  induction xs generalizing a with
  | nil => simp at h
  | cons y ys ih =>
      rw [List.forall_mem_cons] at hxs
      rw [List.flatMap_cons] at h
      -- a lexeme that ends before the sign is put in front of what the rest is split into
      have hlater {a' : List Char} (ha : a = y.chars ++ a') (hrest : ys.flatMap (·.chars) = a' ++ c :: rest) :
          ∃ A C, y :: ys = A ++ x :: C ∧ A.flatMap (·.chars) = a ∧ C.flatMap (·.chars) = rest := by
        obtain ⟨A, C, hys, hA, hC⟩ := ih hxs.2 hrest
        exact ⟨y :: A, C, congrArg (y :: ·) hys, by rw [List.flatMap_cons, hA, ha], hC⟩
      rcases List.append_eq_append_iff.mp h with ⟨a', ha, hrest⟩ | ⟨c', hy, hrest⟩
      · exact hlater ha hrest
      · cases c' with
        | nil =>
            have ha : a = y.chars ++ [] := by simpa using hy.symm
            exact hlater ha hrest.symm
        | cons d c' =>
            obtain ⟨rfl, htail⟩ := List.cons.inj hrest
            by_cases hyx : y = x
            · rw [hyx, hx] at hy
              obtain ⟨rfl, hc'⟩ : a = [] ∧ c' = [] := by
                cases a with
                | nil => simpa using hy.symm
                | cons _ _ => simp at hy
              rw [hc'] at htail
              exact ⟨[], ys, by rw [hyx]; rfl, rfl, htail.symm⟩
            · refine absurd ?_ (hother y hxs.1 hyx)
              rw [hy]
              exact List.mem_append_right _ List.mem_cons_self

/-- What opens and closes as many parentheses can be read with one parenthesis less open than before, if it closes
none of those. -/
theorem Stance.along_shallower {b : Bool} {k k' m : Nat} {s : Stance} (hxs : ∀ x ∈ xs, x.Written)
    (hdepth : depthAfter k (xs.flatMap (·.chars)) = some k')
    (h : along ⟨b, m + 1 + k⟩ (xs.map Lexeme.kind) = some s) :
    s.depth = m + 1 + k' ∧ along ⟨b, m + k⟩ (xs.map Lexeme.kind) = some ⟨s.operandRead, m + k'⟩ := by
  induction xs generalizing b k with
  | nil =>
      cases h
      cases hdepth
      exact ⟨rfl, rfl⟩
  | cons x xs ih =>
      rw [List.forall_mem_cons] at hxs
      rw [List.flatMap_cons] at hdepth
      -- what is no parenthesis does not depend on the depth and does not change it
      have hplain {b' : Bool} (hne : x ≠ .opening ∧ x ≠ .closing)
          (hstep : ∀ n, Stance.step ⟨b, n⟩ x.kind = some ⟨b', n⟩) :
          s.depth = m + 1 + k' ∧
            along ⟨b, m + k⟩ ((x :: xs).map Lexeme.kind) = some ⟨s.operandRead, m + k'⟩ := by
        rw [depthAfter_append (hxs.1.no_parenthesis hne)] at hdepth
        rw [List.map_cons, along, hstep] at h ⊢
        exact ih hxs.2 hdepth h
      cases hxs.1 with
      | name _ =>
          cases b with
          | false => exact hplain ⟨by rintro ⟨⟩, by rintro ⟨⟩⟩ fun _ => rfl
          | true => cases h
      | bang =>
          cases b with
          | false => exact hplain ⟨by rintro ⟨⟩, by rintro ⟨⟩⟩ fun _ => rfl
          | true => cases h
      | connective op =>
          cases b with
          | false => cases h
          | true => exact hplain (ofConnective_ne op).symm fun _ => rfl
      | opening =>
          cases b with
          | false => exact ih (k := k + 1) hxs.2 hdepth h
          | true => cases h
      | closing =>
          cases b with
          | false => cases h
          | true =>
              cases k with
              | zero => cases hdepth
              | succ k => exact ih hxs.2 hdepth h

/-- A sentence is still one without one of its pairs of parentheses. -/
theorem Sentence.without_pair (hxs : ∀ x ∈ A ++ .opening :: (B ++ .closing :: C), x.Written)
    (h : Sentence (A ++ .opening :: (B ++ .closing :: C))) (hpair : Balanced (B.flatMap (·.chars))) :
    Sentence (A ++ (B ++ C)) := by
  have hwritten : ∀ x ∈ A ++ (B ++ C), x.Written := fun x hx => hxs x (by grind)
  have hB : ∀ x ∈ B, x.Written := fun x hx => hxs x (by grind)
  rw [sentence_iff hxs, List.map_append, Stance.along_append] at h
  obtain ⟨⟨b, n⟩, hbefore, h⟩ := Option.bind_eq_some_iff.mp h
  cases b with
  | true => cases h
  | false =>
      have hinside : (Stance.along ⟨false, n + 1⟩ (B.map Lexeme.kind)).bind
          (Stance.along · (.closing :: C.map Lexeme.kind)) = some .final := by
        rw [← Stance.along_append, ← h, List.map_cons, List.map_append, List.map_cons]
        rfl
      obtain ⟨⟨b, m⟩, hover, hafter⟩ := Option.bind_eq_some_iff.mp hinside
      obtain ⟨hdepth, hshallower⟩ := Stance.along_shallower (k := 0) hB hpair hover
      obtain rfl : m = n + 1 := hdepth
      cases b with
      | false => cases hafter
      | true =>
          have hinside : Stance.along ⟨false, n⟩ (B.map Lexeme.kind) = some ⟨true, n⟩ := hshallower
          rw [sentence_iff hwritten, List.map_append, List.map_append, Stance.along_append, hbefore, Option.bind_some,
            Stance.along_append, hinside]
          exact hafter

/-- Lexemes that can be written one after the other can be written. -/
theorem Lexeme.Legible.written (h : Legible xs) : ∀ x ∈ xs, x.Written := by
  induction h with
  | nil => nofun
  | cons hx _ _ ih => exact List.forall_mem_cons.mpr ⟨hx, ih⟩

/-- A sentence has a lexeme. -/
theorem Sentence.ne_nil (h : Sentence xs) : xs ≠ [] := by
  rintro rfl
  have hnone : ∀ x ∈ ([] : List Lexeme), x.Written := by simp
  cases (sentence_iff hnone).mp h

/-- What can be written is not blank. -/
theorem isBlankText_flatMap (hxs : ∀ x ∈ xs, x.Written) (hne : xs ≠ []) :
    Text.isBlankText (String.ofList (xs.flatMap (·.chars))) = false := by
  obtain ⟨x, hx⟩ := List.exists_mem_of_ne_nil xs hne
  obtain ⟨c, hc, hblank⟩ := (hxs x hx).exists_not_blank
  rw [Text.isBlankText, String.toList_ofList, List.all_eq_false]
  exact ⟨c, List.mem_flatMap.mpr ⟨x, hx, hc⟩, by rw [hblank]; exact Bool.false_ne_true⟩

/-- A sentence is read from what is written for it. -/
theorem Sentence.parseLabel (hxs : ∀ x ∈ xs, x.Written) (h : Sentence xs) :
    ∃ e, parseLabel (String.ofList (xs.flatMap (·.chars))) = .ok e ∧
      lexemesOf (String.ofList (xs.flatMap (·.chars))) = xs := by
  have hblank := isBlankText_flatMap hxs h.ne_nil
  obtain ⟨d, rfl⟩ := h
  have hlegible := d.legible hxs .nil nofun
  rw [List.append_nil] at hlegible
  obtain ⟨htokens, hillegal⟩ := hlegible.scanFrom 0
  have hlexemes : lexemesOf (String.ofList (d.lexemes.flatMap (·.chars))) = d.lexemes := by
    rw [lexemesOf, String.toList_ofList, scan, htokens]
  refine ⟨d.label, parseLabel_eq_ok_iff.mpr ⟨hblank, ?_, d, hlexemes.symm, rfl⟩, hlexemes⟩
  rw [String.toList_ofList, scan, hillegal]

/-- What is written for an expression is a sentence. -/
theorem Label.Named.sentence {e : Label} (he : e.Named) : Sentence e.lexemes := by
  obtain ⟨-, -, d, hd, -⟩ := parseLabel_eq_ok_iff.mp he.parseLabel_name
  have hlegible : Legible e.lexemes := he.legible .nil nofun
  rw [Label.name, String.toList_ofList, scan, (hlegible.scanFrom 0).1] at hd
  exact ⟨d, hd⟩

/-- A pair of parentheses in the text of lexemes is a pair among the lexemes. -/
theorem exists_pair_of_flatMap {a b c : List Char} (hxs : ∀ x ∈ xs, x.Written)
    (h : xs.flatMap (·.chars) = a ++ '(' :: (b ++ ')' :: c)) :
    ∃ A B C, xs = A ++ .opening :: (B ++ .closing :: C) ∧ A.flatMap (·.chars) = a ∧ B.flatMap (·.chars) = b ∧
      C.flatMap (·.chars) = c := by
  have hopening : ∀ y : Lexeme, y.Written → y ≠ .opening → '(' ∉ y.chars := by
    intro y hy hne hmem
    by_cases hclosing : y = .closing
    · rw [hclosing] at hmem
      exact absurd hmem (by decide)
    · exact (hy.no_parenthesis ⟨hne, hclosing⟩ _ hmem).1 rfl
  have hclosing : ∀ y : Lexeme, y.Written → y ≠ .closing → ')' ∉ y.chars := by
    intro y hy hne hmem
    by_cases hopening : y = .opening
    · rw [hopening] at hmem
      exact absurd hmem (by decide)
    · exact (hy.no_parenthesis ⟨hopening, hne⟩ _ hmem).2 rfl
  obtain ⟨A, D, rfl, hA, hD⟩ := exists_lexeme_of_flatMap rfl hopening hxs h
  have hwritten : ∀ x ∈ D, x.Written := fun x hx => hxs x (by grind)
  obtain ⟨B, C, rfl, hB, hC⟩ := exists_lexeme_of_flatMap rfl hclosing hwritten hD
  exact ⟨A, B, C, rfl, hA, hB, hC⟩

end Pair

/-- The written form of an expression without marks has no pair of parentheses to spare: it is read as an expression
with the same normal form, and without any one of its pairs it is read as one with another normal form. -/
theorem Registry.parse_name_without_pair (r : Registry) (e : Label) (he : e.Named) (hunmarked : e.Unmarked) :
    (∃ e', (r.parse e.name).2 = .ok e' ∧ e'.normal = e.normal) ∧
      ∀ a b c : List Char, e.name.toList = a ++ '(' :: (b ++ ')' :: c) → Balanced b →
        ∃ e', (r.parse (String.ofList (a ++ (b ++ c)))).2 = .ok e' ∧ e'.normal ≠ e.normal := by
  refine ⟨⟨e.reread, he.parseLabel_name, e.normal_reread⟩, fun a b c hname hpair => ?_⟩
  have hlegible : Lexeme.Legible e.lexemes := he.legible .nil nofun
  have hsentence := he.sentence
  rw [Label.name, String.toList_ofList] at hname
  obtain ⟨A, B, C, hlexemes, rfl, rfl, rfl⟩ := exists_pair_of_flatMap hlegible.written hname
  have hwritten := hlegible.written
  rw [hlexemes] at hsentence hwritten
  have hwithout : ∀ x ∈ A ++ (B ++ C), x.Written := fun x hx => hwritten x (by grind)
  obtain ⟨e', hread, hsame⟩ := (hsentence.without_pair hwritten hpair).parseLabel hwithout
  rw [List.flatMap_append, List.flatMap_append] at hread hsame
  refine ⟨e', hread, fun hnormal => ?_⟩
  -- the normal form would need all pairs of the expression, but was read from a text with one pair less
  have hfewer := pairs_normal_of_parseLabel hread
  have hall := e.count_lexemes
  rw [hsame, hnormal, hunmarked.pairs_normal] at hfewer
  rw [hlexemes] at hall
  simp only [List.count_append, List.count_cons_self, List.count_cons_of_ne (a := Lexeme.opening)
    (b := Lexeme.closing) (by decide)] at hfewer hall
  omega

/-- Without its parentheses a disjunction before a conjunction is read as one with a conjunction in it. -/
theorem Registry.parse_name_without_pair_left :
    let e : Label := .binary .and (.binary .or (.atom "a" false) (.atom "b" false) false) (.atom "c" false) false
    e.Named ∧ e.Unmarked ∧ e.name.toList = [] ++ '(' :: (['a', '|', '|', 'b'] ++ ')' :: ['&', '&', 'c']) ∧
      Balanced ['a', '|', '|', 'b'] ∧
      ∃ e', (empty.parse "a||b&&c").2 = .ok e' ∧ e'.normal ≠ e.normal := by
  have hnamed : Label.Named
      (.binary .and (.binary .or (.atom "a" false) (.atom "b" false) false) (.atom "c" false) false) := by
    unfold Label.Named
    decide
  have hunmarked : Label.Unmarked
      (.binary .and (.binary .or (.atom "a" false) (.atom "b" false) false) (.atom "c" false) false) := by decide
  have hpair := (parse_name_without_pair empty _ hnamed hunmarked).2 [] ['a', '|', '|', 'b'] ['&', '&', 'c']
    (by decide) (by decide)
  exact ⟨hnamed, hunmarked, by decide, by decide, hpair⟩

end LabelScheduler
