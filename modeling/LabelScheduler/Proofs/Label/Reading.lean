import LabelScheduler.Label.Parse
import LabelScheduler.Proofs.Label.Canonical
import LabelScheduler.Proofs.Label.Scan

/-!
# Reading what was written

While the lexemes of an expression are read, the frames that were there before stay as they are, if the
expression binds tighter than the frame on top allows. What is then on the stack need not be the whole
expression: its last operands may still wait for more. But it goes on like the whole expression as soon as
something comes that binds no tighter. In the other direction, whatever is read is canonical, because on the
stack waiting operands bind tighter and tighter.
-/

namespace LabelScheduler

namespace Label

variable {e l r : Label} {op : Connective}

/-- How loosely an expression binds as an operand; what is grouped binds as tightly as an atom. -/
def looseness (e : Label) : Nat := if e.grouped then 0 else e.operator.precedence

/-- An expression fits under an operator exactly when it binds no looser. -/
theorem looseness_le_iff {parent : Operator} : e.looseness ≤ parent.precedence ↔ FitsUnder parent e := by
  unfold looseness FitsUnder
  cases hgrouped : e.grouped with
  | false => simp
  | true => simp

/-- An expression binds tighter than a connective exactly when it can be its right operand. -/
theorem looseness_lt_iff :
    e.looseness < (Operator.binary op).precedence ↔ FitsUnder (.binary op) e ∧ ¬ IsBare op e := by
  rw [← looseness_le_iff, Nat.lt_iff_le_and_ne]
  apply and_congr_right
  intro _
  unfold looseness IsBare
  cases hgrouped : e.grouped with
  | false =>
      have hsame : e.operator.precedence = (Operator.binary op).precedence ↔ e.operator = .binary op :=
        ⟨Operator.precedence_inj, fun h => h ▸ rfl⟩
      simp [hsame]
  | true => cases op <;> simp [Operator.precedence]

/-- Nothing binds looser than an equivalence. -/
theorem looseness_lt (e : Label) : e.looseness < 6 := by
  have hprecedence := e.operator.precedence_lt
  unfold looseness
  split <;> omega

/-- The names of the atoms can be written. -/
def Named (e : Label) : Prop := ∀ n ∈ e.atomNames, isAtomName n.toList = true

/-- The lexemes of an expression can be written one after the other, before anything that may follow an
operand. -/
theorem Named.legible (he : e.Named) {after : List Lexeme} (hafter : Lexeme.Legible after)
    (hnext : ∀ y ∈ after.head?, y.kind.followsOperand = true) : Lexeme.Legible (e.lexemesThen after) := by
  have hparens {p : Bool} {inner : List Lexeme → List Lexeme} {after : List Lexeme}
      (hinner : ∀ after, Lexeme.Legible after → (∀ y ∈ after.head?, y.kind.followsOperand = true) →
        Lexeme.Legible (inner after)) (hafter : Lexeme.Legible after)
      (hnext : ∀ y ∈ after.head?, y.kind.followsOperand = true) :
      Lexeme.Legible (parenthesizedIf p inner after) := by
    cases p with
    | false => exact hinner after hafter hnext
    | true =>
        apply Lexeme.Legible.cons .opening nofun
        apply hinner _ (.cons .closing nofun hafter)
        rintro y ⟨⟩
        rfl
  induction e generalizing after with
  | atom n g =>
      apply hparens _ hafter hnext
      intro after hafter hnext
      exact .cons (.name (he n (List.mem_singleton_self n))) (fun _ => hnext) hafter
  | not b g ih =>
      apply hparens _ hafter hnext
      intro after hafter hnext
      exact .cons .bang nofun (hparens (fun _ => ih he) hafter hnext)
  | binary op l r g ihl ihr =>
      apply hparens _ hafter hnext
      intro after hafter hnext
      have hl : l.Named := fun n hn => he n (List.mem_append_left _ hn)
      have hr : r.Named := fun n hn => he n (List.mem_append_right _ hn)
      apply hparens (fun _ => ihl hl) (.cons (.connective op) nofun (hparens (fun _ => ihr hr) hafter hnext))
      rintro y ⟨⟩
      rfl

end Label

namespace Cursor

variable {c c' d : Cursor} {p : Nat} {e l r : Label} {op : Connective} {fs : List Frame}

/-- Move over lexemes, one after the other. -/
def along (c : Cursor) : List Lexeme → Option Cursor
  | [] => some c
  | x :: xs => (c.step ⟨x.kind, x.chars, 0⟩).bind fun c => c.along xs

/-- Reading gives an expression exactly when the cursor can move over all tokens and end with it. -/
theorem readFrom_eq_ok_iff {illegal : Option IllegalChar} {ts : List Token} :
    (readFrom c illegal ts).result = .ok e ↔
      illegal = none ∧ (c.along (ts.map Token.lexeme)).bind finish = some e := by
  induction ts generalizing c with
  | nil =>
      cases illegal with
      | some i => simp [readFrom]
      | none => cases hfinish : c.finish <;> simp [readFrom, along, hfinish]
  | cons t ts ih =>
      have hstep : c.step ⟨t.lexeme.kind, t.lexeme.chars, 0⟩ = c.step t := rfl
      rw [List.map_cons, along, hstep]
      cases hnext : c.step t with
      | none => simp [readFrom, hnext]
      | some c' =>
          simp only [readFrom, hnext, Option.bind_some]
          rw [← ih]
          split <;> rfl

/-- The ways in which the cursor moves over a token. -/
inductive Moved (c : Cursor) (t : Token) : Cursor → Prop where
  | atom (hread : c.read = none) (hkind : t.kind = .atom) : Moved c t (operandRead (.atom t.text false) c.frames)
  | negation (hread : c.read = none) (hkind : t.kind = .not) : Moved c t ⟨.negation :: c.frames, none⟩
  | opening (hread : c.read = none) (hkind : t.kind = .opening) : Moved c t ⟨.opening :: c.frames, none⟩
  | connective {e : Label} {op : Connective} (hread : c.read = some e) (hkind : t.kind = .connective op) :
      Moved c t ⟨.operand op (closeFor op e c.frames).2 :: (closeFor op e c.frames).1, none⟩
  | closing {e whole : Label} {fs : List Frame} (hread : c.read = some e) (hkind : t.kind = .closing)
      (hclosed : closeAll e c.frames = (.opening :: fs, whole)) : Moved c t (operandRead whole.group fs)

/-- If the cursor moves over a token, it does so in one of these ways. -/
theorem step_moved {t : Token} (h : c.step t = some c') : Moved c t c' := by
  unfold step at h
  split at h
  case h_1 hread hkind => exact Option.some.inj h ▸ .atom hread hkind
  case h_2 hread hkind => exact Option.some.inj h ▸ .negation hread hkind
  case h_3 hread hkind => exact Option.some.inj h ▸ .opening hread hkind
  case h_4 hread hkind => exact Option.some.inj h ▸ .connective hread hkind
  case h_5 hread hkind =>
    split at h
    case h_1 hclosed => exact Option.some.inj h ▸ .closing hread hkind hclosed
    case h_2 => cases h
  case h_6 => cases h

/-- How loosely an expression in front of the frames may bind, at most, to be read by itself. -/
def room : List Frame → Nat
  | .operand op _ :: _ => (Operator.binary op).precedence
  | .negation :: _ => 2
  | _ => 6

/-- The cursors go on in the same way unless a connective comes that binds tighter than `p` says. -/
structure Agree (p : Nat) (c d : Cursor) : Prop where
  step : ∀ t : Token, (∀ op, t.kind = .connective op → p ≤ (Operator.binary op).precedence) →
    c.step t = d.step t
  finish : c.finish = d.finish

/-- Every cursor agrees with itself. -/
protected theorem Agree.refl (p : Nat) (c : Cursor) : Agree p c c := ⟨fun _ _ => rfl, rfl⟩

/-- Agreement is passed on. -/
protected theorem Agree.trans (h : Agree p c d) (h' : Agree p d c') : Agree p c c' :=
  ⟨fun t ht => (h.step t ht).trans (h'.step t ht), h.finish.trans h'.finish⟩

/-- Cursors that agree, agree all the more if less can come. -/
theorem Agree.mono {p' : Nat} (h : Agree p c d) (hp : p ≤ p') : Agree p' c d :=
  ⟨fun t ht => h.step t fun op hop => Nat.le_trans hp (ht op hop), h.finish⟩

/-- A waiting operand is closed by whatever binds no tighter than its connective. -/
theorem agree_operand (op : Connective) (l r : Label) (fs : List Frame) :
    Agree (Operator.binary op).precedence ⟨.operand op l :: fs, some r⟩ ⟨fs, some (.binary op l r false)⟩ := by
  refine ⟨fun t ht => ?_, rfl⟩
  cases hkind : t.kind with
  | connective op' =>
      have hbinds : op.bindsBefore op' = true := decide_eq_true (ht op' hkind)
      simp only [step, hkind, closeFor, hbinds, if_true]
  | _ => simp only [step, hkind, closeAll]

/-- If there is room for a connective, no waiting operand is closed for it. -/
theorem closeFor_of_room (h : (Operator.binary op).precedence < room fs) : closeFor op e fs = (fs, e) := by
  cases fs with
  | nil => rfl
  | cons f fs =>
      cases f with
      | opening => rfl
      | negation => rfl
      | operand o l =>
          have hbinds : o.bindsBefore op = false := decide_eq_false (Nat.not_le_of_lt h)
          simp only [closeFor, hbinds, Bool.false_eq_true, if_false]

/-- No negation waits where there is room for a connective. -/
theorem head?_ne_negation (h : (Operator.binary op).precedence < room fs) : fs.head? ≠ some .negation := by
  cases fs with
  | nil => nofun
  | cons f fs =>
      rintro ⟨⟩
      exact absurd op.two_le_precedence (Nat.not_le_of_lt h)

/-- An operand that no negation waits for is just read. -/
theorem operandRead_of_head (h : fs.head? ≠ some .negation) : operandRead e fs = ⟨fs, some e⟩ := by
  cases fs with
  | nil => rfl
  | cons f fs =>
      cases f with
      | negation => exact absurd rfl h
      | _ => rfl

/-- Where there is room for the expression, the cursor moves over what is written for it, and then goes on as if
it had just read the expression. -/
def Reads (written : List Lexeme → List Lexeme) (e : Label) : Prop :=
  ∀ fs, e.looseness < room fs → ∀ after, ∃ c,
    along ⟨fs, none⟩ (written after) = c.along after ∧ Agree e.looseness c (operandRead e fs)

namespace Reads

variable {w v : List Lexeme → List Lexeme}

/-- A name is read as an atom. -/
theorem atom (n : String) : Reads (.ofName n :: ·) (.atom n false) := by
  intro fs _ after
  refine ⟨operandRead (.atom n false) fs, ?_, .refl ..⟩
  have htext : (Token.text ⟨.atom, n.toList, 0⟩) = n := String.ofList_toList
  change (some (operandRead (.atom (Token.text ⟨.atom, n.toList, 0⟩) false) fs)).bind _ = _
  rw [htext]
  rfl

/-- What can be read by itself can be read in parentheses. -/
theorem group (h : Reads w e) : Reads (fun after => .opening :: w (.closing :: after)) e.group := by
  intro fs _ after
  obtain ⟨c, hover, hagree⟩ := h (.opening :: fs) e.looseness_lt (.closing :: after)
  refine ⟨operandRead e.group fs, ?_, .refl ..⟩
  have hclosed : c.step ⟨.closing, [')'], 0⟩ = some (operandRead e.group fs) := hagree.step _ nofun
  change along ⟨.opening :: fs, none⟩ (w (.closing :: after)) = _
  rw [hover]
  change (c.step ⟨.closing, [')'], 0⟩).bind _ = _
  rw [hclosed]
  rfl

/-- A negation is read if its operand is and binds tightly enough. -/
theorem not (h : Reads w e) (htight : e.looseness ≤ 1) : Reads (.bang :: w ·) (.not e false) := by
  intro fs _ after
  obtain ⟨c, hover, hagree⟩ := h (.negation :: fs) (Nat.lt_succ_of_le htight) after
  exact ⟨c, hover, hagree.mono htight⟩

/-- A node is read if its operands are, and the right one binds tighter. -/
theorem binary (hl : Reads w l) (hr : Reads v r) (hloose : l.looseness ≤ (Operator.binary op).precedence)
    (hright : r.looseness < (Operator.binary op).precedence) :
    Reads (fun after => w (.ofConnective op :: v after)) (.binary op l r false) := by
  intro fs hroom after
  have hhead := head?_ne_negation hroom
  obtain ⟨c, hover, hagree⟩ := hl fs (Nat.lt_of_le_of_lt hloose hroom) (.ofConnective op :: v after)
  obtain ⟨d, hover', hagree'⟩ := hr (.operand op l :: fs) hright after
  rw [operandRead_of_head hhead] at hagree
  rw [operandRead_of_head (by simp)] at hagree'
  have hstep : c.step ⟨.connective op, (Operator.binary op).symbol.toList, 0⟩ =
      some ⟨.operand op l :: fs, none⟩ := by
    rw [hagree.step _ fun op' hop => by injection hop with hop; exact hop ▸ hloose]
    simp only [step, closeFor_of_room hroom]
  refine ⟨d, ?_, ?_⟩
  · rw [hover, ← hover']
    change (c.step ⟨.connective op, (Operator.binary op).symbol.toList, 0⟩).bind _ = _
    rw [hstep]
    rfl
  · rw [operandRead_of_head hhead]
    exact (hagree'.mono (Nat.le_of_lt hright)).trans (agree_operand op l r fs)

/-- An expression may have been written in parentheses. -/
theorem groupIf (g : Bool) (h : Reads w e) : Reads (parenthesizedIf g w) (Label.enclose g e) := by
  cases g with
  | false => exact h
  | true => exact h.group

/-- Canonical expressions are read from what is written for them. -/
theorem of_canonical (h : e.Canonical) : Reads e.lexemesThen e := by
  induction e with
  | atom n g =>
      have hread := (atom n).groupIf g
      cases g <;> exact hread
  | not b g ih =>
      have hneeds := Label.needsParens_left.mpr h.1
      have hread := ((ih h.2).not (Label.looseness_le_iff.mpr h.1)).groupIf g
      simp only [Label.lexemesThen, hneeds]
      cases g <;> exact hread
  | binary op l r g ihl ihr =>
      have hneeds := Label.needsParens_left.mpr h.1.1
      have hneeds' := Label.needsParens_right.mpr ⟨h.2.1.1, fun _ => h.2.1.2⟩
      have hread := ((ihl h.1.2).binary (ihr h.2.2) (Label.looseness_le_iff.mpr h.1.1)
        (Label.looseness_lt_iff.mpr h.2.1)).groupIf g
      simp only [Label.lexemesThen, hneeds, hneeds']
      cases g <;> exact hread

end Reads

/-- If an expression is read from what is written for it, then from the beginning and to the end as well. -/
theorem Reads.bind_finish {w : List Lexeme → List Lexeme} (h : Reads w e) :
    (initial.along (w [])).bind finish = some e := by
  obtain ⟨c, hover, hagree⟩ := h [] e.looseness_lt []
  have hfinish : c.finish = some e := hagree.finish
  change (along ⟨[], none⟩ (w [])).bind finish = some e
  rw [hover]
  exact hfinish

/-- The cursor moves over all lexemes of a canonical expression and ends with it. -/
theorem along_lexemes (h : e.Canonical) : (initial.along e.lexemes).bind finish = some e :=
  (Reads.of_canonical h).bind_finish

end Cursor

namespace Label

variable {e : Label}

/-- What is written is not blank. -/
theorem Named.isBlankText_name (he : e.Named) : Text.isBlankText e.name = false := by
  have hlegible : Lexeme.Legible e.lexemes := he.legible .nil nofun
  have hfirst : ∃ c ∈ e.lexemes.flatMap (·.chars), Text.isBlank c = false := by
    cases hlexemes : e.lexemes with
    | nil =>
        have hread := Cursor.along_lexemes (canonical_reread e)
        have hsame : e.reread.lexemes = [] := by rw [lexemes, lexemesThen_reread, ← lexemes, hlexemes]
        rw [hsame] at hread
        cases hread
    | cons x xs =>
        rw [hlexemes] at hlegible
        cases hlegible with
        | cons hx _ _ =>
            obtain ⟨c, hc, hnot⟩ := hx.exists_not_blank
            exact ⟨c, List.mem_flatMap.mpr ⟨x, List.mem_cons_self, hc⟩, hnot⟩
  rw [Text.isBlankText, name, String.toList_ofList, Bool.eq_false_iff]
  intro hblank
  obtain ⟨c, hc, hnot⟩ := hfirst
  rw [List.all_eq_true.mp hblank c hc] at hnot
  cases hnot

/-- A written expression is read as its canonical form. -/
theorem Named.parseLabel_name (he : e.Named) : parseLabel e.name = .ok e.reread := by
  have hlegible : Lexeme.Legible e.lexemes := he.legible .nil nofun
  obtain ⟨htokens, hillegal⟩ := hlegible.scanFrom 0
  rw [parseLabel, readLabel, he.isBlankText_name]
  simp only [Bool.false_eq_true, if_false]
  rw [Cursor.readFrom_eq_ok_iff, name, String.toList_ofList, scan]
  refine ⟨hillegal, ?_⟩
  rw [htokens, lexemes, ← lexemesThen_reread]
  exact Cursor.along_lexemes (canonical_reread e)

end Label

end LabelScheduler
