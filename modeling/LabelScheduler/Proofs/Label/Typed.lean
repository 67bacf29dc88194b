import LabelScheduler.Proofs.Label.Grammar

/-!
# Written forms and typed texts

The written form of an expression that was read from a text is the text itself, but for separators and for
parentheses that do nothing but wrap others. The parentheses of a text are matched by reading it from the end:
a closing one puts what stands behind it aside, and an opening one takes it up again. What is matched in the
lexemes of a phrase is what its derivation puts in parentheses, and no expression of a phrase is in need of
parentheses that were not typed, so the claim follows by induction over the phrase. As the border of two lexemes
does not depend on what separates them, separators can be left out of an accepted text.
-/

namespace LabelScheduler

open Cursor

/-- Lexemes with their parentheses matched: nothing, or first a lexeme that is no parenthesis, or first a pair of
parentheses with what it encloses. -/
inductive Nesting where
  | nil
  | plain (x : Lexeme) (rest : Nesting)
  | pair (inside rest : Nesting)
  deriving DecidableEq

namespace Nesting

/-- The lexemes from left to right. -/
def lexemes : Nesting → List Lexeme
  | .nil => []
  | .plain x rest => x :: rest.lexemes
  | .pair inside rest => .opening :: inside.lexemes ++ .closing :: rest.lexemes

/-- There is nothing. -/
def isNil : Nesting → Bool
  | .nil => true
  | _ => false

/-- There is nothing but one pair of parentheses and what it encloses. -/
def isPair : Nesting → Bool
  | .pair _ rest => rest.isNil
  | _ => false

/-- Somewhere a pair of parentheses directly wraps another one. -/
def hasDoubled : Nesting → Bool
  | .nil => false
  | .plain _ rest => rest.hasDoubled
  | .pair inside rest => inside.isPair || inside.hasDoubled || rest.hasDoubled

/-- The lexemes without the pairs of parentheses that directly wrap another pair. -/
def undoubled : Nesting → List Lexeme
  | .nil => []
  | .plain x rest => x :: rest.undoubled
  | .pair inside rest =>
    if inside.isPair then inside.undoubled ++ rest.undoubled
    else .opening :: inside.undoubled ++ .closing :: rest.undoubled

/-- Read a lexeme that stands before what was read already: the lexemes up to the first closing parenthesis that
is still unmatched, and those that stand between these parentheses and behind them. -/
def push (x : Lexeme) (read : Nesting × List Nesting) : Option (Nesting × List Nesting) :=
  if x = .closing then some (.nil, read.1 :: read.2)
  else if x = .opening then
    match read.2 with
    | [] => none
    | rest :: behind => some (.pair read.1 rest, behind)
  else some (.plain x read.1, read.2)

/-- Read lexemes from the last to the first, unless an opening parenthesis has no match. -/
def readBack : List Lexeme → Option (Nesting × List Nesting)
  | [] => some (.nil, [])
  | x :: xs => (readBack xs).bind (push x)

/-- Match the parentheses of lexemes, if each has a match. -/
def ofLexemes (xs : List Lexeme) : Option Nesting :=
  match readBack xs with
  | some (n, []) => some n
  | _ => none

variable {n : Nesting} {behind : List Nesting} {xs : List Lexeme}

/-- Reading keeps all lexemes. -/
theorem lexemes_of_readBack (h : readBack xs = some (n, behind)) :
    n.lexemes ++ behind.flatMap (.closing :: ·.lexemes) = xs := by
  induction xs generalizing n behind with
  | nil =>
      cases h
      rfl
  | cons x xs ih =>
      obtain ⟨⟨inside, aside⟩, hread, hpush⟩ := Option.bind_eq_some_iff.mp h
      have hxs := ih hread
      simp only [push] at hpush
      split at hpush
      case isTrue hx =>
        cases hpush
        rw [hx, ← hxs, List.flatMap_cons]
        rfl
      case isFalse =>
        split at hpush
        case isTrue hx =>
          cases aside with
          | nil => cases hpush
          | cons rest aside =>
              cases hpush
              rw [hx, ← hxs, List.flatMap_cons]
              simp [lexemes]
        case isFalse =>
          cases hpush
          rw [← hxs]
          rfl

/-- Matching parentheses keeps all lexemes. -/
theorem lexemes_of_ofLexemes (h : ofLexemes xs = some n) : n.lexemes = xs := by
  unfold ofLexemes at h
  split at h
  case h_1 n' hread =>
    have hxs := lexemes_of_readBack hread
    rw [← Option.some.inj h, ← hxs]
    exact (List.append_nil _).symm
  case h_2 => cases h

/-- Where no pair directly wraps another one, none is dropped. -/
theorem undoubled_of_hasDoubled (h : n.hasDoubled = false) : n.undoubled = n.lexemes := by
  induction n with
  | nil => rfl
  | plain x rest ih => exact congrArg (x :: ·) (ih h)
  | pair inside rest ihi ihr =>
      simp only [hasDoubled, Bool.or_eq_false_iff] at h
      rw [undoubled, h.1.1, ihi h.1.2, ihr h.2]
      rfl

end Nesting

section Matched

open Nesting

mutual

/-- The lexemes of a phrase with its own parentheses matched, before others. -/
def Phrase.nestingThen {o : Operator} : Phrase o → Nesting → Nesting
  | .chain _ first rest, after => first.nestingThen (rest.nestingThen after)
  | .negation body, after => .plain .bang (body.nestingThen after)
  | .operand body, after => body.nestingThen after
  | .parentheses body, after => .pair (body.nestingThen .nil) after
  | .name n, after => .plain (.ofName n) after

/-- The lexemes of further operands with their own parentheses matched, before others. -/
def Repetition.nestingThen {op : Connective} : Repetition op → Nesting → Nesting
  | .none _, after => after
  | .more op next rest, after => .plain (.ofConnective op) (next.nestingThen (rest.nestingThen after))

end

/-- Reading a lexeme that is no parenthesis puts it in front. -/
theorem Nesting.readBack_plain {x : Lexeme} {ys : List Lexeme} {n : Nesting} {behind : List Nesting}
    (hx : x ≠ .closing ∧ x ≠ .opening) (h : readBack ys = some (n, behind)) :
    readBack (x :: ys) = some (.plain x n, behind) := by
  rw [readBack, h, Option.bind_some, push, if_neg hx.1, if_neg hx.2]

/-- Signs of connectives are no parentheses. -/
theorem Lexeme.ofConnective_ne (op : Connective) :
    ofConnective op ≠ .closing ∧ ofConnective op ≠ .opening := by
  cases op <;> decide

mutual

/-- Reading the lexemes of a phrase matches its own parentheses. -/
theorem Phrase.readBack_lexemes {o : Operator} : (d : Phrase o) → {ys : List Lexeme} → {n : Nesting} →
    {behind : List Nesting} → readBack ys = some (n, behind) →
    readBack (d.lexemes ++ ys) = some (d.nestingThen n, behind)
  | .chain op first rest, ys, n, behind, h => by
      rw [Phrase.lexemes, List.append_assoc]
      exact first.readBack_lexemes (rest.readBack_lexemes h)
  | .negation body, ys, n, behind, h => readBack_plain (by decide) (body.readBack_lexemes h)
  | .operand body, ys, n, behind, h => body.readBack_lexemes h
  | .parentheses body, ys, n, behind, h => by
      have hclosing : readBack (.closing :: ys) = some (.nil, n :: behind) := by
        rw [readBack, h]
        rfl
      have hbody := body.readBack_lexemes hclosing
      simp only [Phrase.lexemes, List.cons_append, List.append_assoc, List.nil_append]
      rw [readBack, hbody]
      rfl
  | .name m, ys, n, behind, h => readBack_plain ⟨nofun, nofun⟩ h

/-- Reading the lexemes of further operands matches their own parentheses. -/
theorem Repetition.readBack_lexemes {op : Connective} : (rest : Repetition op) → {ys : List Lexeme} →
    {n : Nesting} → {behind : List Nesting} → readBack ys = some (n, behind) →
    readBack (rest.lexemes ++ ys) = some (rest.nestingThen n, behind)
  | .none _, ys, n, behind, h => h
  | .more op next rest, ys, n, behind, h => by
      rw [Repetition.lexemes, List.cons_append, List.cons_append, List.append_assoc]
      exact readBack_plain (Lexeme.ofConnective_ne op) (next.readBack_lexemes (rest.readBack_lexemes h))

end

/-- The parentheses of the lexemes of a phrase match as in the phrase. -/
theorem Phrase.ofLexemes_lexemes {o : Operator} (d : Phrase o) :
    ofLexemes d.lexemes = some (d.nestingThen .nil) := by
  have hempty : readBack [] = some (.nil, []) := rfl
  have hread := d.readBack_lexemes hempty
  rw [List.append_nil] at hread
  rw [ofLexemes, hread]

/-- A phrase before others is nothing but a pair of parentheses exactly if it stands in parentheses and there are
no others. -/
theorem Phrase.isPair_nestingThen {o : Operator} (d : Phrase o) (after : Nesting) :
    (d.nestingThen after).isPair = (d.isEnclosed && after.isNil) :=
  match d with
  | .chain _ first (.none _) => first.isPair_nestingThen after
  | .chain _ first (.more _ _ _) => (first.isPair_nestingThen _).trans (Bool.and_false _)
  | .negation _ => rfl
  | .operand body => body.isPair_nestingThen after
  | .parentheses _ => rfl
  | .name _ => rfl

end Matched

section Written

/-- Grouping an expression that is grouped already changes nothing. -/
theorem Label.group_of_grouped {e : Label} (h : e.grouped = true) : e.group = e := by
  cases e <;> cases h <;> rfl

/-- What comes after an expression is written behind its lexemes. -/
theorem Label.lexemesThen_eq_append (e : Label) (after : List Lexeme) : e.lexemesThen after = e.lexemes ++ after := by
  have hparens {inner : List Lexeme → List Lexeme} (hinner : ∀ after, inner after = inner [] ++ after) (p : Bool)
      (after : List Lexeme) : parenthesizedIf p inner after = parenthesizedIf p inner [] ++ after := by
    cases p with
    | false => exact hinner after
    | true =>
        simp only [parenthesizedIf, if_true]
        rw [hinner (.closing :: after), hinner [.closing], List.cons_append, List.append_assoc]
        rfl
  induction e generalizing after with
  | atom n g => exact hparens (fun _ => rfl) g after
  | not b g ih => exact hparens (fun after => congrArg _ (hparens ih _ after)) g after
  | binary op l r g ihl ihr =>
      refine hparens (fun after => ?_) g after
      rw [hparens ihl, hparens ihr, hparens ihl _ (_ :: parenthesizedIf _ r.lexemesThen []), List.append_assoc]
      rfl

/-- A grouped expression that was not grouped before is written between parentheses. -/
theorem Label.lexemesThen_group {e : Label} (h : e.grouped = false) (after : List Lexeme) :
    e.group.lexemesThen after = .opening :: e.lexemesThen (.closing :: after) :=
  Label.lexemesThen_enclose (p := true) (fun _ => h) after

/-- A conjunction or the like is written without further parentheses if its operands bind tightly enough. -/
theorem Label.lexemesThen_binary {op : Connective} {l r : Label}
    (hl : l.looseness ≤ (Operator.binary op).precedence) (hr : r.looseness < (Operator.binary op).precedence)
    (after : List Lexeme) :
    (Label.binary op l r false).lexemesThen after = l.lexemesThen (.ofConnective op :: r.lexemesThen after) := by
  have hleft := Label.needsParens_left.mpr (Label.looseness_le_iff.mp hl)
  have hright := Label.needsParens_right.mpr ((Label.looseness_lt_iff.mp hr).imp_right fun hbare _ => hbare)
  simp only [Label.lexemesThen, hleft, hright, parenthesizedIf, Bool.false_eq_true, if_false]

mutual

/-- The expression of a phrase is written with the lexemes of the phrase, but for doubled parentheses. -/
theorem Phrase.undoubled_nestingThen {o : Operator} : (d : Phrase o) → (after : Nesting) →
    (d.nestingThen after).undoubled = d.label.lexemesThen after.undoubled
  | .chain op first rest, after => by
      have hloose := Nat.le_of_lt first.looseness_operand_lt
      rw [Phrase.nestingThen, first.undoubled_nestingThen, Phrase.label, rest.lexemesThen_foldOnto hloose]
  | .negation body, after => by
      have hparens := Label.needsParens_left.mpr (Label.looseness_le_iff.mp body.looseness_label)
      rw [Phrase.nestingThen, Nesting.undoubled, body.undoubled_nestingThen]
      simp only [Phrase.label, Label.lexemesThen, hparens, parenthesizedIf, Bool.false_eq_true, if_false]
  | .operand body, after => body.undoubled_nestingThen after
  | .parentheses body, after => by
      have hinside : (body.nestingThen .nil).undoubled = body.label.lexemes := body.undoubled_nestingThen .nil
      have hpair : (body.nestingThen .nil).isPair = body.label.grouped := by
        rw [body.isPair_nestingThen, body.grouped_label]
        exact Bool.and_true _
      rw [Phrase.nestingThen, Nesting.undoubled, hinside, hpair, Phrase.label]
      cases hgrouped : body.label.grouped with
      | true =>
          rw [if_pos rfl, Label.group_of_grouped hgrouped, Label.lexemesThen_eq_append]
      | false =>
          rw [if_neg Bool.false_ne_true, Label.lexemesThen_group hgrouped, Label.lexemesThen_eq_append]
          rfl
  | .name _, after => rfl

/-- Further operands are written with their own lexemes, but for doubled parentheses. -/
theorem Repetition.lexemesThen_foldOnto {op : Connective} : (rest : Repetition op) → {l : Label} →
    l.looseness ≤ (Operator.binary op).precedence → (after : Nesting) →
    (rest.foldOnto l).lexemesThen after.undoubled = l.lexemesThen (rest.nestingThen after).undoubled
  | .none _, _, _, _ => rfl
  | .more op next rest, l, hl, after => by
      rw [Repetition.foldOnto, rest.lexemesThen_foldOnto (Nat.le_refl _),
        Label.lexemesThen_binary hl next.looseness_operand_lt, ← next.undoubled_nestingThen]
      rfl

end

end Written

section Legible

open Lexeme

mutual

/-- The lexemes of a phrase can be written one after the other, before anything that may follow an operand. -/
theorem Phrase.legible {o : Operator} : (d : Phrase o) → (∀ x ∈ d.lexemes, x.Written) → {after : List Lexeme} →
    Legible after → (∀ y ∈ after.head?, y.kind.followsOperand = true) → Legible (d.lexemes ++ after)
  | .chain op first rest, hd, after, hafter, hnext => by
      rw [Phrase.lexemes, List.forall_mem_append] at hd
      obtain ⟨hrest, hhead⟩ := rest.legible hd.2 hafter hnext
      rw [Phrase.lexemes, List.append_assoc]
      exact first.legible hd.1 hrest hhead
  | .negation body, hd, after, hafter, hnext =>
      .cons .bang nofun (body.legible (List.forall_mem_cons.mp hd).2 hafter hnext)
  | .operand body, hd, after, hafter, hnext => body.legible hd hafter hnext
  | .parentheses body, hd, after, hafter, hnext => by
      have hbody : ∀ x ∈ body.lexemes, x.Written := fun x hx =>
        hd x (List.mem_append_left _ (List.mem_cons_of_mem _ hx))
      have hclosing : Legible (.closing :: after) := .cons .closing nofun hafter
      have hinside := body.legible hbody hclosing (by rintro y ⟨⟩; rfl)
      rw [Phrase.lexemes, List.append_assoc]
      exact .cons .opening nofun hinside
  | .name n, hd, after, hafter, hnext =>
      .cons (hd _ (List.mem_singleton_self _)) (fun _ => hnext) hafter

/-- The lexemes of further operands can be written one after the other, and they may follow an operand. -/
theorem Repetition.legible {op : Connective} : (rest : Repetition op) → (∀ x ∈ rest.lexemes, x.Written) →
    {after : List Lexeme} → Legible after → (∀ y ∈ after.head?, y.kind.followsOperand = true) →
    Legible (rest.lexemes ++ after) ∧ ∀ y ∈ (rest.lexemes ++ after).head?, y.kind.followsOperand = true
  | .none _, _, _, hafter, hnext => ⟨hafter, hnext⟩
  | .more op next rest, hd, after, hafter, hnext => by
      rw [Repetition.lexemes, List.cons_append, List.forall_mem_cons, List.forall_mem_append] at hd
      obtain ⟨hrest, hhead⟩ := rest.legible hd.2.2 hafter hnext
      rw [Repetition.lexemes, List.cons_append, List.cons_append, List.append_assoc]
      refine ⟨.cons (.connective op) nofun (next.legible hd.2.1 hrest hhead), ?_⟩
      rintro y ⟨⟩
      rfl

end

end Legible

/-- The lexemes of a text, up to the first illegal character. -/
def lexemesOf (s : String) : List Lexeme := (scan s.toList).tokens.map Token.lexeme

/-- The text without what separates its tokens. -/
def separatorFree (s : String) : List Char := s.toList.filter (!isSeparator ·)

section Typed

variable {s s' : String} {e : Label}

/-- A text without illegal characters is its lexemes and separators. -/
theorem flatMap_lexemesOf (h : (scan s.toList).illegal = none) :
    (lexemesOf s).flatMap (·.chars) = separatorFree s :=
  ((scanFrom_spaced h).filter (scanFrom_written 0 s.toList).lexemes).symm

/-- Texts that differ in separators alone are blank together. -/
theorem isBlankText_of_separatorFree (h : separatorFree s' = separatorFree s)
    (hs : Text.isBlankText s = false) : Text.isBlankText s' = false := by
  rw [Text.isBlankText, List.all_eq_false] at hs ⊢
  obtain ⟨c, hc, hblank⟩ := hs
  have hsign : isSeparator c = false := by
    rw [Bool.eq_false_iff]
    exact fun hseparator => hblank (isBlank_of_isSeparator hseparator)
  have hmem : c ∈ separatorFree s' := by
    rw [h]
    exact List.mem_filter.mpr ⟨hc, by rw [hsign]; rfl⟩
  exact ⟨c, (List.mem_filter.mp hmem).1, hblank⟩

/-- What an accepted text is read as does not change when separators are left out, nor do its lexemes. -/
theorem parseLabel_leaveOut (h : parseLabel s = .ok e) (hsub : s'.toList.Sublist s.toList)
    (hs' : separatorFree s' = separatorFree s) : lexemesOf s' = lexemesOf s ∧ parseLabel s' = .ok e := by
  obtain ⟨hblank, hillegal, d, hlexemes, hlabel⟩ := parseLabel_eq_ok_iff.mp h
  have hwritten := (scanFrom_written 0 s.toList).lexemes
  have hspaced := (scanFrom_spaced hillegal).leaveOut hwritten hsub hs'
  have hlegible : Lexeme.Legible (lexemesOf s) := by
    have hd := d.legible (hlexemes ▸ hwritten) .nil nofun
    rwa [List.append_nil, hlexemes] at hd
  obtain ⟨hsame, hillegal'⟩ := hlegible.scanFrom_spaced hspaced 0
  exact ⟨hsame, parseLabel_eq_ok_iff.mpr
    ⟨isBlankText_of_separatorFree hs' hblank, hillegal', d, hlexemes.trans hsame.symm, hlabel⟩⟩

/-- What a text is read as is written with the lexemes of the text, but for doubled parentheses. -/
theorem parseLabel_undoubled (h : parseLabel s = .ok e) :
    ∃ n, Nesting.ofLexemes (lexemesOf s) = some n ∧ e.lexemes = n.undoubled := by
  obtain ⟨-, -, d, hlexemes, rfl⟩ := parseLabel_eq_ok_iff.mp h
  have hmatched := d.ofLexemes_lexemes
  rw [hlexemes] at hmatched
  exact ⟨_, hmatched, (d.undoubled_nestingThen .nil).symm⟩

/-- The written form of what a text is read as is the lexemes of the text without the pairs of parentheses that
directly wrap another pair. If there are no such pairs it is the text without its separators. And whatever
separators are left out of the text, its lexemes and what it is read as stay the same. -/
theorem Registry.parse_typed (r : Registry) (s : String) (e : Label) (h : (r.parse s).2 = .ok e) :
    (∃ n, Nesting.ofLexemes (lexemesOf s) = some n ∧ n.lexemes = lexemesOf s ∧
      e.name = String.ofList (n.undoubled.flatMap (·.chars)) ∧
      (n.hasDoubled = false → e.name = String.ofList (separatorFree s))) ∧
    ∀ (r' : Registry) (s' : String), s'.toList.Sublist s.toList → separatorFree s' = separatorFree s →
      lexemesOf s' = lexemesOf s ∧ (r'.parse s').2 = .ok e := by
  refine ⟨?_, fun _ s' hsub hs' => parseLabel_leaveOut h hsub hs'⟩
  obtain ⟨n, hn, hlexemes⟩ := parseLabel_undoubled h
  have hall := Nesting.lexemes_of_ofLexemes hn
  have hname : e.name = String.ofList (n.undoubled.flatMap (·.chars)) := by rw [← hlexemes, Label.name]
  refine ⟨n, hn, hall, hname, fun hsingle => ?_⟩
  obtain ⟨-, hillegal, -⟩ := parseLabel_eq_ok_iff.mp h
  rw [hname, Nesting.undoubled_of_hasDoubled hsingle, hall, flatMap_lexemesOf hillegal]

/-- A pair of parentheses around another one is not written again, one around an atom is; the dashes at the ends of
atoms stay apart from the arrow when nothing separates them. -/
theorem Registry.parse_typed_doubled :
    let s := "(( a- -> -b )) && (c)"
    let e : Label :=
      .binary .and (.binary .implies (.atom "a-" false) (.atom "-b" false) true) (.atom "c" true) false
    (empty.parse s).2 = .ok e ∧ e.name = "(a-->-b)&&(c)" ∧
      (∃ n, Nesting.ofLexemes (lexemesOf s) = some n ∧ n.hasDoubled = true ∧
        e.name = String.ofList (n.undoubled.flatMap (·.chars))) ∧
      lexemesOf "((a-->-b))&&(c)" = lexemesOf s ∧ (empty.parse "((a-->-b))&&(c)").2 = .ok e :=
  have htyped := parse_typed empty "(( a- -> -b )) && (c)"
    (.binary .and (.binary .implies (.atom "a-" false) (.atom "-b" false) true) (.atom "c" true) false) (by decide)
  have hdoubled : (Nesting.ofLexemes (lexemesOf "(( a- -> -b )) && (c)")).map Nesting.hasDoubled = some true := by
    decide
  have ⟨n, hn, _, hname, _⟩ := htyped.1
  ⟨by decide, by decide, ⟨n, hn, Option.some.inj ((congrArg _ hn).symm.trans hdoubled), hname⟩,
    htyped.2 empty _ (by decide) (by decide)⟩

end Typed

end LabelScheduler
