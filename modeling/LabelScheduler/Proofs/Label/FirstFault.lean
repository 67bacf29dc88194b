import LabelScheduler.Proofs.Label.Cutting
import LabelScheduler.Proofs.Label.Stance
import LabelScheduler.Proofs.Registry

/-!
# The first fault in a text

A reading ends at the first token that no sentence has at its place, or else at the first illegal character, or else
at the end of the text, which may come too early. The atoms of the tokens before that point get registered, but for
one directly before it: an atom is registered only when what follows shows that it is a whole operand, and neither an
illegal character nor a token that begins an operand does. Within what was read before the fault each atom is followed
by a token that may follow an operand, so only the last one can be left out.
-/

namespace LabelScheduler

open Cursor

/-- The names of the atoms among tokens, in order and with repetitions. -/
def atomTexts (ts : List Token) : List String := (ts.filter (·.kind = .atom)).map Token.text

/-- Where the reading of a scanned text ends: the tokens whose atoms are registered, and what is given back. -/
inductive Ending (s : Scanned) : List Token → Except ParseFault Label → Prop where
  | unexpected {before after : List Token} {t : Token} (htokens : s.tokens = before ++ t :: after)
      (hviable : Viable (before.map Token.lexeme)) (hfirst : ¬ Viable ((before ++ [t]).map Token.lexeme)) :
      Ending s (if t.kind.followsOperand then before else before.dropLast) (.error (.unexpectedToken t))
  | illegal {i : IllegalChar} (hviable : Viable (s.tokens.map Token.lexeme)) (hillegal : s.illegal = some i) :
      Ending s s.tokens.dropLast (.error (.illegal i))
  | incomplete (hviable : Viable (s.tokens.map Token.lexeme)) (hillegal : s.illegal = none)
      (hincomplete : ¬ Sentence (s.tokens.map Token.lexeme)) : Ending s s.tokens (.error .unexpectedEnd)
  | whole (hillegal : s.illegal = none) (d : Phrase (.binary .iff)) (hd : d.lexemes = s.tokens.map Token.lexeme) :
      Ending s s.tokens (.ok d.label)

section Positions

/-- The tokens and the illegal character stand in the text where they say that they stand. -/
structure Scanned.StandsIn (s : Scanned) (text : List Char) : Prop where
  tokens : ∀ t ∈ s.tokens, t.chars <+: text.drop t.start
  illegal : ∀ i ∈ s.illegal, (text.drop i.position).head? = some i.char

/-- What is scanned stands in the text in which it was scanned. -/
theorem scanFrom_standsIn {position : Nat} {cs text : List Char} (hcs : text.drop position = cs) :
    (scanFrom position cs).StandsIn text := by
  have hcuts := scanFrom_cuts hcs
  refine ⟨fun t ht => (hcuts.whole t ht).1.stands, fun i hi => ?_⟩
  rw [List.head?_drop]
  exact (hcuts.stuckAt hi).1

end Positions

section Reading

variable {c c' : Cursor} {illegal : Option IllegalChar} {before rest : List Token}

/-- Whatever can be read directly after an atom is a token that may follow an operand. -/
theorem followsOperand_of_step {t u : Token} {d : Cursor} (ht : t.kind = .atom) (hstep : c.step t = some c')
    (hnext : c'.step u = some d) : u.kind.followsOperand = true := by
  cases step_moved hstep with
  | atom =>
      cases step_moved hnext with
      | connective _ hkind => rw [hkind]; rfl
      | closing _ hkind _ => rw [hkind]; rfl
      | atom hread _ | negation hread _ | opening hread _ => cases hread
  | negation _ hkind | opening _ hkind => rw [ht] at hkind; cases hkind
  | connective _ hkind | closing _ hkind _ => rw [ht] at hkind; cases hkind

/-- Only atoms count. -/
theorem atomTexts_cons (t : Token) (ts : List Token) :
    atomTexts (t :: ts) = if t.kind = .atom then t.text :: atomTexts ts else atomTexts ts := by
  unfold atomTexts
  by_cases hkind : t.kind = .atom
  · rw [List.filter_cons_of_pos (by simpa using hkind), if_pos hkind, List.map_cons]
  · rw [List.filter_cons_of_neg (by simpa using hkind), if_neg hkind]

/-- Reading goes on from where the cursor has come, and the atoms on the way are met, but for the last token if what
comes next does not settle it. -/
theorem readFrom_append (h : c.along (before.map Token.lexeme) = some c') :
    readFrom c illegal (before ++ rest) =
      ⟨atomTexts (if settles illegal rest then before else before.dropLast) ++ (readFrom c' illegal rest).atoms,
        (readFrom c' illegal rest).result⟩ := by
  induction before generalizing c with
  | nil =>
      cases h
      simp [atomTexts]
  | cons t before ih =>
      obtain ⟨d, hstep, hover⟩ := Option.bind_eq_some_iff.mp h
      have ht : c.step t = some d := hstep
      rw [List.cons_append, readFrom, ht]
      simp only [ih hover]
      cases before with
      | nil =>
          cases hsettles : settles illegal rest with
          | true => by_cases hkind : t.kind = .atom <;> simp [hsettles, hkind, atomTexts_cons]
          | false => simp [hsettles]
      | cons u before =>
          obtain ⟨d', hstep', -⟩ := Option.bind_eq_some_iff.mp hover
          have hu : d.step u = some d' := hstep'
          have hdrop : (if settles illegal rest then t :: u :: before else (t :: u :: before).dropLast) =
              t :: if settles illegal rest then u :: before else (u :: before).dropLast := by
            split <;> rfl
          rw [hdrop, atomTexts_cons]
          by_cases hkind : t.kind = .atom
          · have hsettles : settles illegal (u :: (before ++ rest)) = true := followsOperand_of_step hkind ht hu
            simp only [hkind, hsettles, and_self, if_true, List.cons_append]
          · simp only [hkind, false_and, if_false]

end Reading

section Ending

variable {s : Scanned} {before : List Token}

/-- If tokens are not the beginning of a sentence, there is a first one at which they no longer are. -/
theorem exists_first_unviable (hbefore : Viable (before.map Token.lexeme)) (ts : List Token)
    (hnot : ¬ Viable ((before ++ ts).map Token.lexeme)) :
    ∃ met t after, before ++ ts = met ++ t :: after ∧ Viable (met.map Token.lexeme) ∧
      ¬ Viable ((met ++ [t]).map Token.lexeme) := by
  induction ts generalizing before with
  | nil =>
      rw [List.append_nil] at hnot
      exact absurd hbefore hnot
  | cons t ts ih =>
      by_cases hnext : Viable ((before ++ [t]).map Token.lexeme)
      · rw [List.append_cons] at hnot ⊢
        exact ih hnext hnot
      · exact ⟨before, t, ts, rfl, hbefore, hnext⟩

/-- Every reading ends somewhere. -/
theorem exists_ending (s : Scanned) : ∃ met result, Ending s met result := by
  have hnone : Viable ([].map Token.lexeme) := ⟨[.ofName "a"], .chain _ (.chain _ (.chain _ (.chain _
    (.operand (.name "a")) (.none _)) (.none _)) (.none _)) (.none _), rfl⟩
  by_cases hviable : Viable (s.tokens.map Token.lexeme)
  · cases hillegal : s.illegal with
    | some i => exact ⟨_, _, .illegal hviable hillegal⟩
    | none =>
        by_cases hsentence : Sentence (s.tokens.map Token.lexeme)
        · obtain ⟨d, hd⟩ := hsentence
          exact ⟨_, _, .whole hillegal d hd⟩
        · exact ⟨_, _, .incomplete hviable hillegal hsentence⟩
  · obtain ⟨met, t, after, htokens, hmet, hfirst⟩ := exists_first_unviable hnone s.tokens hviable
    exact ⟨_, _, .unexpected htokens hmet hfirst⟩

/-- The cursor does not move over the first token at which tokens are no longer the beginning of a sentence. -/
theorem step_eq_none {c : Cursor} {t : Token} (hwritten : ∀ x ∈ (before ++ [t]).map Token.lexeme, x.Written)
    (hover : initial.along (before.map Token.lexeme) = some c)
    (hfirst : ¬ Viable ((before ++ [t]).map Token.lexeme)) : c.step t = none := by
  rw [viable_iff hwritten, List.map_append, along_append, hover] at hfirst
  cases hstep : c.step t with
  | none => rfl
  | some d =>
      have hmoved : ((c.step t).bind some).isSome = true := by rw [hstep]; rfl
      exact absurd hmoved hfirst

/-- If all tokens are the beginning of a sentence, the cursor moves over them, and then the end or an illegal
character is read. -/
theorem Viable.readFrom {ts : List Token} (h : Viable (ts.map Token.lexeme)) (illegal : Option IllegalChar) :
    ∃ c, initial.along (ts.map Token.lexeme) = some c ∧ LabelScheduler.readFrom .initial illegal ts =
      ⟨atomTexts (if settles illegal [] then ts else ts.dropLast) ++ (LabelScheduler.readFrom c illegal []).atoms,
        (LabelScheduler.readFrom c illegal []).result⟩ := by
  obtain ⟨c, hover⟩ := Option.isSome_iff_exists.mp h.isSome_along
  refine ⟨c, hover, ?_⟩
  rw [← readFrom_append hover, List.append_nil]

/-- Reading ends where it should, with the atoms before that point and with what is to be given back. -/
theorem Ending.readFrom {met : List Token} {result : Except ParseFault Label} (h : Ending s met result)
    (hwritten : s.Written) : readFrom .initial s.illegal s.tokens = ⟨atomTexts met, result⟩ := by
  have hall := hwritten.lexemes
  cases h with
  | @unexpected before after t htokens hviable hfirst =>
      have hnext : ∀ x ∈ (before ++ [t]).map Token.lexeme, x.Written := fun x hx => hall x (by
        rw [htokens, List.append_cons, List.map_append]
        exact List.mem_append_left _ hx)
      obtain ⟨c, hover⟩ := Option.isSome_iff_exists.mp hviable.isSome_along
      rw [htokens, readFrom_append hover, LabelScheduler.readFrom, step_eq_none hnext hover hfirst]
      simp only [settles, List.append_nil]
      rfl
  | illegal hviable hillegal =>
      obtain ⟨c, -, hread⟩ := hviable.readFrom s.illegal
      rw [hread, hillegal]
      simp [settles, LabelScheduler.readFrom]
  | incomplete hviable hillegal hincomplete =>
      obtain ⟨c, hover, hread⟩ := hviable.readFrom s.illegal
      have hfinish : c.finish = none := by
        rw [sentence_iff_finish hall hover, Bool.not_eq_true, Option.isSome_eq_false_iff] at hincomplete
        exact Option.isNone_iff_eq_none.mp hincomplete
      rw [hread, hillegal]
      simp [settles, LabelScheduler.readFrom, hfinish]
  | whole hillegal d hd =>
      obtain ⟨c, hover, hread⟩ := (Sentence.viable ⟨d, hd⟩).readFrom s.illegal
      have hlabel := d.reads.bind_finish
      rw [List.append_nil, hd, hover] at hlabel
      have hfinish : c.finish = some d.label := hlabel
      rw [hread, hillegal]
      simp [settles, LabelScheduler.readFrom, hfinish]

end Ending

/-- The text of an atom that was scanned is the name of an atom, with every registry. -/
theorem checkName_text {s : String} {t : Token} (ht : t ∈ (scan s.toList).tokens) (hkind : t.kind = .atom) :
    Registry.checkName t.text = .ok t.text := by
  have hname : isAtomName t.chars = true := (scanFrom_written 0 s.toList t ht).named hkind
  have hchars : t.chars ≠ [] ∧ t.chars.all isAtomChar = true := by simpa [isAtomName] using hname
  exact Registry.checkName_ofList hchars.1 fun c hc => isBlank_of_isAtomChar (List.all_eq_true.mp hchars.2 c hc)

/-- The first fault in a text that is not blank is what reading it gives, or else the expression that it is. The
registry keeps its atoms and gets those of the tokens before that point that it does not have, in the order in which
they come first; only an atom directly before the fault is left out, unless the fault is the end of the text or a
token that may follow an operand. No name of such a token is refused, and the fault stands where it says. -/
theorem Registry.parse_first_fault (r : Registry) (s : String) (hs : Text.isBlankText s = false) :
    (∃ met result, Ending (scan s.toList) met result) ∧
      (∀ met result, Ending (scan s.toList) met result →
        (r.parse s).2 = result ∧
          (r.parse s).1.names = r.names ++ ((atomTexts met).filter (· ∉ r.names)).eraseDups) ∧
      (∀ t ∈ (scan s.toList).tokens, t.kind = .atom → ∀ r' : Registry,
        r'.intern t.text = (r'.add t.text, .ok ((r'.add t.text).names.idxOf t.text, t.text))) ∧
      (scan s.toList).StandsIn s.toList := by
  refine ⟨exists_ending _, fun met result h => ?_, fun t ht hkind r' => ?_, scanFrom_standsIn rfl⟩
  · have hread : readLabel s = ⟨atomTexts met, result⟩ := by
      rw [readLabel, hs]
      exact h.readFrom (scanFrom_written 0 s.toList)
    rw [parse, hread]
    exact ⟨rfl, r.names_addAll _⟩
  · rw [intern, checkName_text ht hkind]

/-- Where the end comes too early, all atoms have been registered, each once. -/
theorem Registry.parse_first_fault_end :
    let s := "a && (b || a"
    Text.isBlankText s = false ∧ Ending (scan s.toList) (scan s.toList).tokens (.error .unexpectedEnd) ∧
      (empty.parse s).2 = .error .unexpectedEnd ∧ (empty.parse s).1.names = ["a", "b"] := by
  have hwritten := (scanFrom_written 0 "a && (b || a".toList).lexemes
  have hviable : Viable ((scan "a && (b || a".toList).tokens.map Token.lexeme) :=
    (viable_iff hwritten).mpr (by decide)
  have hincomplete : ¬ Sentence ((scan "a && (b || a".toList).tokens.map Token.lexeme) := fun hsentence =>
    absurd ((sentence_iff hwritten).mp hsentence) (by decide)
  have hending := Ending.incomplete hviable (by decide) hincomplete
  obtain ⟨hresult, hnames⟩ := (parse_first_fault empty "a && (b || a" (by decide)).2.1 _ _ hending
  exact ⟨by decide, hending, hresult, hnames.trans (by decide)⟩

/-- An atom directly before a token that begins an operand is not registered. -/
theorem Registry.parse_first_fault_unsettled :
    let s := "foo bar"
    let foo : Token := ⟨.atom, ['f', 'o', 'o'], 0⟩
    let bar : Token := ⟨.atom, ['b', 'a', 'r'], 4⟩
    Text.isBlankText s = false ∧ (scan s.toList).tokens = [foo, bar] ∧ Viable ([foo].map Token.lexeme) ∧
      ¬ Viable ([foo, bar].map Token.lexeme) ∧ (empty.parse s).2 = .error (.unexpectedToken bar) ∧
      (empty.parse s).1.names ≠ empty.names ++ ((atomTexts [foo]).filter (· ∉ empty.names)).eraseDups := by
  have hwritten := (scanFrom_written 0 "foo bar".toList).lexemes
  have hfoo : ∀ x ∈ [Token.lexeme ⟨.atom, ['f', 'o', 'o'], 0⟩], x.Written := fun x hx => hwritten x (by
    rw [List.mem_singleton.mp hx]
    decide)
  exact ⟨by decide, by decide, (viable_iff hfoo).mpr (by decide),
    fun hviable => absurd hviable.isSome_along (by decide), by decide, by decide⟩

end LabelScheduler
