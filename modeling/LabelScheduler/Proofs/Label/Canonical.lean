import LabelScheduler.Label.Meaning
import LabelScheduler.Label.Render
import Mathlib.Data.List.Basic

/-!
# Canonical label expressions

An expression is canonical if the parentheses that it was written with are all that it needs, and if its
ungrouped conjunctions, disjunctions and the like lean to the left. Every expression has a canonical form with
the same written form and the same meaning: what is written in parentheses is marked as grouped, and an
ungrouped right operand of the same connective is turned over to the left.
-/

namespace LabelScheduler

/-- No two operators bind equally tightly. -/
theorem Operator.precedence_inj {a b : Operator} (h : a.precedence = b.precedence) : a = b := by
  cases a with
  | binary c => cases b with
    | binary d => cases c <;> cases d <;> first | rfl | cases h
    | _ => cases c <;> cases h
  | _ => cases b with
    | binary d => cases d <;> cases h
    | _ => first | rfl | cases h

/-- Nothing binds looser than an equivalence. -/
theorem Operator.precedence_lt (o : Operator) : o.precedence < 6 := by
  cases o with
  | binary c => cases c <;> decide
  | _ => decide

/-- Connectives bind looser than a negation. -/
theorem Connective.two_le_precedence (op : Connective) : 2 ≤ (Operator.binary op).precedence := by
  cases op <;> decide

/-- A connective is associative if right operands of the same kind need no parentheses. -/
theorem Connective.eval_assoc {op : Connective} (h : op.keepsRight = false) (a b c : Bool) :
    op.eval (op.eval a b) c = op.eval a (op.eval b c) := by
  cases op with
  | and => exact Bool.and_assoc a b c
  | or => exact Bool.or_assoc a b c
  | implies => cases h
  | iff => cases h

namespace Label

variable {e l r : Label} {op : Connective} {parent : Operator} {has : String → Bool}

/-- Under `parent`, the expression is grouped if it binds looser. -/
def FitsUnder (parent : Operator) (e : Label) : Prop :=
  parent.precedence < e.operator.precedence → e.grouped = true

/-- The expression is a node of the connective that was not written in parentheses. -/
def IsBare (op : Connective) (e : Label) : Prop := e.operator = .binary op ∧ e.grouped = false

instance (parent : Operator) (e : Label) : Decidable (FitsUnder parent e) :=
  inferInstanceAs (Decidable (_ → _))

instance (op : Connective) (e : Label) : Decidable (IsBare op e) :=
  inferInstanceAs (Decidable (_ ∧ _))

/-- Every operand that binds looser is grouped, and no right operand is an ungrouped node of the same
connective. -/
def Canonical : Label → Prop
  | .atom _ _ => True
  | .not b _ => FitsUnder .not b ∧ Canonical b
  | .binary op l r _ =>
    (FitsUnder (.binary op) l ∧ Canonical l) ∧ (FitsUnder (.binary op) r ∧ ¬ IsBare op r) ∧ Canonical r

/-- It can be decided whether an expression is canonical. -/
instance decidableCanonical : DecidablePred Canonical
  | .atom _ _ => inferInstanceAs (Decidable True)
  | .not b _ =>
    have := decidableCanonical b
    inferInstanceAs (Decidable (_ ∧ _))
  | .binary _ l r _ =>
    have := decidableCanonical l
    have := decidableCanonical r
    inferInstanceAs (Decidable ((_ ∧ _) ∧ (_ ∧ _) ∧ _))

/-- Put parentheses around an expression if `p` holds. -/
def enclose (p : Bool) (e : Label) : Label := if p then e.group else e

/-- Join two expressions by a connective; if the right one is an ungrouped node of the same connective, the
left one goes to its far left instead. -/
def graft (op : Connective) (l : Label) : Label → Label
  | .binary o a b false =>
    if o = op then .binary op (graft op l a) b false else .binary op l (.binary o a b false) false
  | r => .binary op l r false

/-- The expression that is read when `e` is written. -/
def reread : Label → Label
  | .atom n g => .atom n g
  | .not b g => .not (enclose (needsParens .not false b) (reread b)) g
  | .binary op l r g =>
    enclose g (graft op (enclose (needsParens (.binary op) false l) (reread l))
      (enclose (needsParens (.binary op) true r) (reread r)))

section Enclose

/-- Parentheses do not change the operator. -/
@[simp] theorem operator_enclose (p : Bool) (e : Label) : (enclose p e).operator = e.operator := by
  cases p with
  | false => rfl
  | true => cases e <;> rfl

/-- Parentheses are remembered. -/
@[simp] theorem grouped_enclose (p : Bool) (e : Label) : (enclose p e).grouped = (p || e.grouped) := by
  cases p with
  | false => rfl
  | true => cases e <;> rfl

/-- Parentheses do not change the meaning. -/
@[simp] theorem holds_enclose (p : Bool) (e : Label) : (enclose p e).holds has = e.holds has := by
  cases p with
  | false => rfl
  | true => cases e <;> rfl

/-- Parentheses do not change the atoms. -/
@[simp] theorem atomNames_enclose (p : Bool) (e : Label) : (enclose p e).atomNames = e.atomNames := by
  cases p with
  | false => rfl
  | true => cases e <;> rfl

/-- Parentheses around the whole do not matter for being canonical. -/
@[simp] theorem canonical_enclose (p : Bool) (e : Label) : (enclose p e).Canonical ↔ e.Canonical := by
  cases p with
  | false => rfl
  | true => cases e <;> rfl

/-- Parentheses are written around an expression that had none. -/
theorem lexemesThen_enclose {p : Bool} (h : p = true → e.grouped = false) (after : List Lexeme) :
    (enclose p e).lexemesThen after = parenthesizedIf p e.lexemesThen after := by
  cases p with
  | false => rfl
  | true =>
      cases e with
      | atom n g =>
          obtain rfl : g = false := h rfl
          rfl
      | not b g =>
          obtain rfl : g = false := h rfl
          rfl
      | binary op l r g =>
          obtain rfl : g = false := h rfl
          rfl

end Enclose

section NeedsParens

/-- Only the operator and the mark of an operand decide whether it needs parentheses. -/
theorem needsParens_congr {e' : Label} (hoperator : e'.operator = e.operator)
    (hgrouped : e'.grouped = e.grouped) (parent : Operator) (right : Bool) :
    needsParens parent right e' = needsParens parent right e := by
  simp only [needsParens, hoperator, hgrouped]

/-- What has parentheses needs none. -/
theorem grouped_of_needsParens {right : Bool} (h : needsParens parent right e = true) : e.grouped = false := by
  cases hgrouped : e.grouped with
  | false => rfl
  | true => simp [needsParens, hgrouped] at h

/-- A left operand, and that of a negation, needs no parentheses exactly when it fits. -/
theorem needsParens_left : needsParens parent false e = false ↔ FitsUnder parent e := by
  cases hgrouped : e.grouped <;> simp [needsParens, FitsUnder, hgrouped]

/-- A right operand needs no parentheses exactly when it fits and is not a node of the same connective, unless
the connective is associative. -/
theorem needsParens_right :
    needsParens (.binary op) true e = false ↔
      FitsUnder (.binary op) e ∧ (op.keepsRight = true → ¬ IsBare op e) := by
  cases hgrouped : e.grouped <;> cases hkeeps : op.keepsRight <;>
    simp [needsParens, FitsUnder, IsBare, hgrouped, hkeeps]

end NeedsParens

section Graft

/-- A graft is an ungrouped node of its connective. -/
theorem graft_isBare (op : Connective) (l r : Label) : IsBare op (graft op l r) := by
  fun_cases graft op l r <;> exact ⟨rfl, rfl⟩

/-- Unless the right operand is an ungrouped node of the same connective, a graft is just a node. -/
theorem graft_of_not_isBare (h : ¬ IsBare op r) : graft op l r = .binary op l r false := by
  fun_cases graft op l r with
  | case1 => exact absurd ⟨rfl, rfl⟩ h
  | case2 => rfl
  | case3 => rfl

/-- A graft means the same as a node, if the connective is associative or nothing is turned over. -/
theorem holds_graft (h : op.keepsRight = true → ¬ IsBare op r) :
    (graft op l r).holds has = op.eval (l.holds has) (r.holds has) := by
  cases hkeeps : op.keepsRight with
  | true =>
      rw [graft_of_not_isBare (h hkeeps)]
      rfl
  | false =>
      clear h
      fun_induction graft op l r with
      | case1 a b ih => simp only [holds, ih, Connective.eval_assoc hkeeps]
      | case2 => rfl
      | case3 => rfl

/-- A graft of canonical expressions is canonical if both fit. -/
theorem canonical_graft (hl : FitsUnder (.binary op) l) (hl' : l.Canonical) (hr : FitsUnder (.binary op) r)
    (hr' : r.Canonical) : (graft op l r).Canonical := by
  fun_induction graft op l r with
  | case1 a b ih =>
      obtain ⟨⟨hfits, ha⟩, hb⟩ := hr'
      have hbare := graft_isBare op l a
      refine ⟨⟨fun hlooser => ?_, ih hfits ha⟩, hb⟩
      rw [hbare.1] at hlooser
      exact absurd hlooser (Nat.lt_irrefl _)
  | case2 o a b hne =>
      refine ⟨⟨hl, hl'⟩, ⟨hr, fun hbare => ?_⟩, hr'⟩
      exact hne (by injection hbare.1)
  | case3 r hnode =>
      refine ⟨⟨hl, hl'⟩, ⟨hr, fun hbare => ?_⟩, hr'⟩
      cases r with
      | atom n g => cases hbare.1
      | not b g => cases hbare.1
      | binary o a b g =>
          obtain rfl : g = false := hbare.2
          exact hnode o a b rfl

/-- A graft is written as its left part, the connective and its right part. -/
theorem lexemesThen_graft (hl : FitsUnder (.binary op) l) (hr : needsParens (.binary op) true r = false)
    (hr' : r.Canonical) (after : List Lexeme) :
    (graft op l r).lexemesThen after = l.lexemesThen (.ofConnective op :: r.lexemesThen after) := by
  have hleft := needsParens_left.mpr hl
  fun_induction graft op l r generalizing after with
  | case1 a b ih =>
      obtain ⟨⟨hfits, ha⟩, ⟨hb, _⟩, _⟩ := hr'
      have hkeeps : op.keepsRight = false := by
        rw [← Bool.not_eq_true]
        exact fun htrue => (needsParens_right.mp hr).2 htrue ⟨rfl, rfl⟩
      have hnot {x : Label} : op.keepsRight = true → ¬ IsBare op x :=
        fun htrue => nomatch hkeeps.symm.trans htrue
      have hgraft : needsParens (.binary op) false (graft op l a) = false := by
        rw [needsParens_left]
        intro hlooser
        rw [(graft_isBare op l a).1] at hlooser
        exact absurd hlooser (Nat.lt_irrefl _)
      have ha' := needsParens_left.mpr hfits
      have hb' := needsParens_right.mpr ⟨hb, hnot⟩
      simp only [lexemesThen, parenthesizedIf, hgraft, ha', hb', Bool.false_eq_true, if_false]
      exact ih (needsParens_right.mpr ⟨hfits, hnot⟩) ha _
  | case2 => simp only [lexemesThen, parenthesizedIf, hleft, hr, Bool.false_eq_true, if_false]
  | case3 => simp only [lexemesThen, parenthesizedIf, hleft, hr, Bool.false_eq_true, if_false]

end Graft

section Reread

/-- What is read has the same operator. -/
theorem operator_reread (e : Label) : e.reread.operator = e.operator := by
  cases e with
  | atom n g => rfl
  | not b g => rfl
  | binary op l r g => rw [reread, operator_enclose, (graft_isBare ..).1, operator]

/-- What is read is grouped if it was. -/
theorem grouped_reread (e : Label) : e.reread.grouped = e.grouped := by
  cases e with
  | atom n g => rfl
  | not b g => rfl
  | binary op l r g => rw [reread, grouped_enclose, (graft_isBare ..).2, Bool.or_false, grouped]

/-- An operand as it is read needs no more parentheses. -/
theorem needsParens_reread (parent : Operator) (right : Bool) (e : Label) :
    needsParens parent right (enclose (needsParens parent right e) e.reread) = false := by
  cases hparens : needsParens parent right e with
  | false => exact (needsParens_congr (operator_reread e) (grouped_reread e) parent right).trans hparens
  | true => simp [needsParens]

/-- An operand as it is read, by the lexemes that were written for it. -/
theorem lexemesThen_operand (h : e.reread.lexemesThen = e.lexemesThen) (parent : Operator) (right : Bool) :
    (enclose (needsParens parent right e) e.reread).lexemesThen =
      parenthesizedIf (needsParens parent right e) e.lexemesThen := by
  funext after
  rw [lexemesThen_enclose, h]
  exact fun hparens => (grouped_reread e).trans (grouped_of_needsParens hparens)

/-- What is read is canonical. -/
theorem canonical_reread (e : Label) : e.reread.Canonical := by
  induction e with
  | atom n g => trivial
  | not b g ih => exact ⟨needsParens_left.mp (needsParens_reread ..), (canonical_enclose ..).mpr ih⟩
  | binary op l r g ihl ihr =>
      rw [reread, canonical_enclose]
      apply canonical_graft
      · exact needsParens_left.mp (needsParens_reread ..)
      · exact (canonical_enclose ..).mpr ihl
      · exact (needsParens_right.mp (needsParens_reread ..)).1
      · exact (canonical_enclose ..).mpr ihr

/-- What is canonical is read as it is. -/
theorem reread_of_canonical (h : e.Canonical) : e.reread = e := by
  induction e with
  | atom n g => rfl
  | not b g ih =>
      obtain ⟨hfits, hb⟩ := h
      rw [reread, needsParens_left.mpr hfits, ih hb]
      rfl
  | binary op l r g ihl ihr =>
      obtain ⟨⟨hfits, hl⟩, ⟨hfits', hbare⟩, hr⟩ := h
      rw [reread, needsParens_left.mpr hfits, needsParens_right.mpr ⟨hfits', fun _ => hbare⟩, ihl hl, ihr hr]
      have hnode : graft op (enclose false l) (enclose false r) = .binary op l r false :=
        graft_of_not_isBare hbare
      rw [hnode]
      cases g <;> rfl

/-- The canonical expressions are those that are read as they are. -/
theorem reread_eq_self_iff : e.reread = e ↔ e.Canonical :=
  ⟨fun h => h ▸ canonical_reread e, reread_of_canonical⟩

/-- What is read is written in the same way. -/
theorem lexemesThen_reread (e : Label) : e.reread.lexemesThen = e.lexemesThen := by
  induction e with
  | atom n g => rfl
  | not b g ih =>
      funext after
      have hparens := needsParens_reread .not false b
      simp only [reread, lexemesThen, hparens, lexemesThen_operand ih]
      rfl
  | binary op l r g ihl ihr =>
      funext after
      have hl := needsParens_left.mp (needsParens_reread (.binary op) false l)
      have hr := needsParens_reread (.binary op) true r
      rw [reread, lexemesThen_enclose fun _ => (graft_isBare ..).2, lexemesThen]
      congr 1
      funext after
      rw [lexemesThen_graft hl hr ((canonical_enclose ..).mpr (canonical_reread r)), lexemesThen_operand ihl,
        lexemesThen_operand ihr]

/-- What is read has the same written form. -/
theorem name_reread (e : Label) : e.reread.name = e.name := by
  rw [name, name, lexemes, lexemes, lexemesThen_reread]

/-- What is read has the same meaning. -/
theorem holds_reread (has : String → Bool) (e : Label) : e.reread.holds has = e.holds has := by
  induction e with
  | atom n g => rfl
  | not b g ih => simp only [reread, holds, holds_enclose, ih]
  | binary op l r g ihl ihr =>
      have hbare := (needsParens_right.mp (needsParens_reread (.binary op) true r)).2
      rw [reread, holds_enclose, holds_graft hbare, holds_enclose, holds_enclose, ihl, ihr, holds]

end Reread

end Label

end LabelScheduler
