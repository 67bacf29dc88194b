import LabelScheduler.Label.Parse
import LabelScheduler.Label.Render
import Mathlib.Data.List.Basic

/-!
# Scanning written lexemes

Lexemes may be written without separators, so scanning has to find their borders by itself. It does, if no two
atoms stand side by side: the characters of the other lexemes are not those of atoms, except for the dash of an
arrow, and that dash is told from one in an atom by the `>` behind it. In the other direction, the atoms that
scanning finds in a text are names that can be written, and the text is its tokens with separators around them.
-/

namespace LabelScheduler

/-- A character that atoms are written with. -/
def isAtomChar (c : Char) : Bool := Text.isWordChar c || c == '.' || c == '-'

/-- A name that can be written as an atom: it is not empty and has only characters of atoms. -/
def isAtomName (cs : List Char) : Bool := !cs.isEmpty && cs.all isAtomChar

/-- A character of an atom in its place is one that atoms are written with. -/
theorem isAtomChar_of_inAtom {c : Char} {rest : List Char} (h : inAtom c rest = true) :
    isAtomChar c = true := by
  simp only [inAtom, Bool.or_eq_true, Bool.and_eq_true] at h
  simp only [isAtomChar, Bool.or_eq_true]
  exact h.imp_right And.left

/-- A character that atoms are written with is in an atom if no `>` follows. -/
theorem inAtom_of_isAtomChar {c : Char} {rest : List Char} (h : isAtomChar c = true)
    (hrest : rest.head? ≠ some '>') : inAtom c rest = true := by
  simp only [isAtomChar, Bool.or_eq_true] at h
  simp only [inAtom, Bool.or_eq_true, Bool.and_eq_true, bne_iff_ne]
  exact h.imp_right fun hdash => ⟨hdash, hrest⟩

/-- The characters of the other lexemes, but for the dash, and the separators. -/
def borderChars : List Char := ['<', '>', '&', '|', '!', '(', ')', ' ', '\t', '\r', '\n']

/-- Atoms are not written with the characters at their borders. -/
theorem isAtomChar_border {c : Char} (h : c ∈ borderChars) : isAtomChar c = false := by
  simp only [borderChars, List.mem_cons, List.not_mem_nil, or_false] at h
  rcases h with rfl | rfl | rfl | rfl | rfl | rfl | rfl | rfl | rfl | rfl | rfl <;> decide

/-- Separators are at the borders of atoms. -/
theorem mem_borderChars_of_isSeparator {c : Char} (h : isSeparator c = true) : c ∈ borderChars := by
  simp only [isSeparator, Bool.or_eq_true, beq_iff_eq] at h
  rcases h with ((rfl | rfl) | rfl) | rfl <;> decide

/-- Separators are blank. -/
theorem isBlank_of_isSeparator {c : Char} (h : isSeparator c = true) : Text.isBlank c = true := by
  simp only [isSeparator, Bool.or_eq_true, beq_iff_eq] at h
  rcases h with ((rfl | rfl) | rfl) | rfl <;> decide

/-- Characters of atoms are no separators. -/
theorem isSeparator_of_isAtomChar {c : Char} (h : isAtomChar c = true) : isSeparator c = false := by
  rw [Bool.eq_false_iff]
  intro hseparator
  rw [isAtomChar_border (mem_borderChars_of_isSeparator hseparator)] at h
  cases h

/-- Characters of atoms are not blank. -/
theorem isBlank_of_isAtomChar {c : Char} (h : isAtomChar c = true) : Text.isBlank c = false := by
  by_contra hblank
  rw [Bool.not_eq_false, Text.isBlank, Text.CharRanges.has, List.any_eq_true] at hblank
  obtain ⟨r, hr, hc⟩ := hblank
  have hblanks : ∀ r ∈ Text.blankRanges, ∀ k ∈ List.range' r.1 (r.2 + 1 - r.1),
      isAtomChar (Char.ofNat k) = false := by decide +kernel
  have hk : c.toNat ∈ List.range' r.1 (r.2 + 1 - r.1) := by
    simp only [Bool.and_eq_true, decide_eq_true_eq] at hc
    rw [List.mem_range'_1]
    omega
  have hnot := hblanks r hr c.toNat hk
  rw [Char.ofNat_toNat, h] at hnot
  cases hnot

/-- A separator is passed over. -/
theorem scanFrom_separator {c : Char} (h : isSeparator c = true) (position : Nat) (rest : List Char) :
    scanFrom position (c :: rest) = scanFrom (position + 1) rest := by
  simp only [isSeparator, Bool.or_eq_true, beq_iff_eq] at h
  rcases h with ((rfl | rfl) | rfl) | rfl <;> rfl

/-- A character in an atom begins an atom or belongs to the one that begins just after it. -/
theorem scanFrom_inAtom {c : Char} {rest : List Char} (h : inAtom c rest = true) (position : Nat) :
    scanFrom position (c :: rest) =
      if opensAtom rest then (scanFrom (position + 1) rest).extend c position
      else (scanFrom (position + 1) rest).push ⟨.atom, [c], position⟩ := by
  have hchar := isAtomChar_of_inAtom h
  have hborder {d : Char} (hd : d ∈ borderChars) : c ≠ d := by
    rintro rfl
    rw [isAtomChar_border hd] at hchar
    cases hchar
  have hseparator : isSeparator c = false := isSeparator_of_isAtomChar hchar
  rw [scanFrom]
  · simp only [hseparator, h, if_true, Bool.false_eq_true, if_false]
  · exact fun _ hc _ => hborder (by simp [borderChars]) hc
  · rintro rest' rfl rfl
    have hnot : inAtom '-' ('>' :: rest') = false := rfl
    rw [hnot] at h
    cases h
  · exact fun _ hc _ => hborder (by simp [borderChars]) hc
  · exact fun _ hc _ => hborder (by simp [borderChars]) hc
  · exact hborder (by simp [borderChars])
  · exact hborder (by simp [borderChars])
  · exact hborder (by simp [borderChars])

/-- Characters of atoms do not put a `>` before what follows. -/
theorem head?_append_ne {cs rest : List Char} (hcs : cs.all isAtomChar = true) (hrest : rest.head? ≠ some '>') :
    (cs ++ rest).head? ≠ some '>' := by
  cases cs with
  | nil => exact hrest
  | cons c cs =>
      rw [List.all_cons, Bool.and_eq_true] at hcs
      intro hc
      rw [Option.some.inj hc, isAtomChar_border (by simp [borderChars])] at hcs
      cases hcs.1

/-- A name is scanned as one atom if what follows neither goes on with it nor makes an arrow of its end. -/
theorem scanFrom_name {cs rest : List Char} (hcs : isAtomName cs = true) (hrest : opensAtom rest = false)
    (hhead : rest.head? ≠ some '>') (position : Nat) :
    scanFrom position (cs ++ rest) =
      (scanFrom (position + cs.length) rest).push ⟨.atom, cs, position⟩ := by
  induction cs generalizing position with
  | nil => cases hcs
  | cons c cs ih =>
      have hall : isAtomChar c = true ∧ cs.all isAtomChar = true := by simpa [isAtomName] using hcs
      have hin : inAtom c (cs ++ rest) = true := inAtom_of_isAtomChar hall.1 (head?_append_ne hall.2 hhead)
      rw [List.cons_append, scanFrom_inAtom hin]
      cases cs with
      | nil =>
          rw [List.nil_append, hrest]
          rfl
      | cons d cs =>
          have hname : isAtomName (d :: cs) = true := hall.2
          have hrest' : isAtomChar d = true ∧ cs.all isAtomChar = true := by simpa using hall.2
          have hopens : opensAtom (d :: cs ++ rest) = true :=
            inAtom_of_isAtomChar hrest'.1 (head?_append_ne hrest'.2 hhead)
          rw [hopens, if_pos rfl, ih hname (position + 1), List.length_cons (a := c), Nat.add_assoc,
            Nat.add_comm 1]
          rfl

/-- What a token is, without its place. -/
def Token.lexeme (t : Token) : Lexeme := ⟨t.kind, t.chars⟩

namespace Lexeme

/-- A lexeme that can be written: an atom with a proper name, or one of the signs. -/
inductive Written : Lexeme → Prop where
  | name {n : String} (h : isAtomName n.toList = true) : Written (.ofName n)
  | bang : Written .bang
  | opening : Written .opening
  | closing : Written .closing
  | connective (c : Connective) : Written (.ofConnective c)

/-- An atom with a proper name can be written. -/
theorem Written.of_named {x : Lexeme} (hkind : x.kind = .atom) (h : isAtomName x.chars = true) :
    x.Written := by
  obtain ⟨kind, chars⟩ := x
  obtain rfl : kind = .atom := hkind
  have hname : Lexeme.ofName (String.ofList chars) = ⟨.atom, chars⟩ := by
    rw [ofName, String.toList_ofList]
  exact hname ▸ .name (by rw [String.toList_ofList]; exact h)

/-- An atom that can be written has a proper name. -/
theorem Written.named {x : Lexeme} (h : x.Written) (hkind : x.kind = .atom) :
    isAtomName x.chars = true := by
  cases h with
  | name h => exact h
  | bang => cases hkind
  | opening => cases hkind
  | closing => cases hkind
  | connective c => cases hkind

/-- Not all characters of a lexeme are blank. -/
theorem Written.exists_not_blank {x : Lexeme} (h : x.Written) : ∃ c ∈ x.chars, Text.isBlank c = false := by
  cases h with
  | @name n hn =>
      cases hchars : n.toList with
      | nil =>
          rw [hchars] at hn
          cases hn
      | cons c cs =>
          rw [hchars] at hn
          have hall : isAtomChar c = true ∧ cs.all isAtomChar = true := by simpa [isAtomName] using hn
          refine ⟨c, ?_, isBlank_of_isAtomChar hall.1⟩
          simp [ofName, hchars]
  | bang => exact ⟨'!', List.mem_singleton_self _, by decide⟩
  | opening => exact ⟨'(', List.mem_singleton_self _, by decide⟩
  | closing => exact ⟨')', List.mem_singleton_self _, by decide⟩
  | connective c =>
      cases c with
      | and => exact ⟨'&', List.mem_cons_self, by decide⟩
      | or => exact ⟨'|', List.mem_cons_self, by decide⟩
      | implies => exact ⟨'-', List.mem_cons_self, by decide⟩
      | iff => exact ⟨'<', List.mem_cons_self, by decide⟩

/-- Lexemes that can be written one directly after the other: only what may follow an operand is next to an
atom. -/
inductive Legible : List Lexeme → Prop where
  | nil : Legible []
  | cons {x : Lexeme} {xs : List Lexeme} (hx : x.Written)
      (hnext : x.kind = .atom → ∀ y ∈ xs.head?, y.kind.followsOperand = true) (hxs : Legible xs) :
      Legible (x :: xs)

/-- The text is the lexemes one after the other, with any number of separators before, between and behind them. -/
inductive Spaced : List Lexeme → List Char → Prop where
  | nil : Spaced [] []
  | separator {xs : List Lexeme} {c : Char} {cs : List Char} (hc : isSeparator c = true) (h : Spaced xs cs) :
      Spaced xs (c :: cs)
  | lexeme {xs : List Lexeme} {cs : List Char} (x : Lexeme) (h : Spaced xs cs) : Spaced (x :: xs) (x.chars ++ cs)

/-- Lexemes may be written without separators. -/
theorem Spaced.flatMap : (xs : List Lexeme) → Spaced xs (xs.flatMap (·.chars))
  | [] => .nil
  | x :: xs => .lexeme x (Spaced.flatMap xs)

/-- What may follow an operand does not go on with an atom before it and makes no arrow of its end. -/
theorem Legible.ends {xs : List Lexeme} {cs : List Char} (h : Legible xs) (hcs : Spaced xs cs)
    (hnext : ∀ y ∈ xs.head?, y.kind.followsOperand = true) :
    opensAtom cs = false ∧ cs.head? ≠ some '>' := by
  cases hcs with
  | nil => exact ⟨rfl, nofun⟩
  | @separator _ c cs hc _ =>
      have hborder := isAtomChar_border (mem_borderChars_of_isSeparator hc)
      refine ⟨Bool.eq_false_iff.mpr fun hopens => ?_, fun hhead => ?_⟩
      · have hinAtom : inAtom c cs = true := hopens
        have hchar := isAtomChar_of_inAtom hinAtom
        rw [hborder] at hchar
        cases hchar
      · rw [Option.some.inj hhead] at hc
        cases hc
  | lexeme x _ =>
      cases h with
      | cons hx _ _ =>
          have hfollows := hnext _ rfl
          cases hx with
          | name _ => cases hfollows
          | bang => cases hfollows
          | opening => cases hfollows
          | closing => exact ⟨rfl, by simp [closing]⟩
          | connective c =>
              cases c with
              | and => exact ⟨rfl, by simp [ofConnective, Operator.symbol]⟩
              | or => exact ⟨rfl, by simp [ofConnective, Operator.symbol]⟩
              | implies => exact ⟨rfl, by simp [ofConnective, Operator.symbol]⟩
              | iff => exact ⟨rfl, by simp [ofConnective, Operator.symbol]⟩

/-- Scanning what was written, however it was spaced, finds the lexemes again, and no illegal character. -/
theorem Legible.scanFrom_spaced {xs : List Lexeme} {cs : List Char} (h : Legible xs) (hcs : Spaced xs cs)
    (position : Nat) :
    (LabelScheduler.scanFrom position cs).tokens.map Token.lexeme = xs ∧
      (LabelScheduler.scanFrom position cs).illegal = none := by
  induction hcs generalizing position with
  | nil => exact ⟨rfl, rfl⟩
  | separator hc _ ih =>
      rw [scanFrom_separator hc]
      exact ih h (position + 1)
  | lexeme x hcs ih =>
      cases h with
      | cons hx hnext hxs =>
          cases hx with
          | name hn =>
              obtain ⟨hopens, hhead⟩ := hxs.ends hcs (hnext rfl)
              simp only [ofName]
              rw [scanFrom_name hn hopens hhead]
              obtain ⟨htokens, hillegal⟩ := ih hxs (position + _)
              exact ⟨congrArg (_ :: ·) htokens, hillegal⟩
          | bang =>
              obtain ⟨htokens, hillegal⟩ := ih hxs (position + 1)
              exact ⟨congrArg (_ :: ·) htokens, hillegal⟩
          | opening =>
              obtain ⟨htokens, hillegal⟩ := ih hxs (position + 1)
              exact ⟨congrArg (_ :: ·) htokens, hillegal⟩
          | closing =>
              obtain ⟨htokens, hillegal⟩ := ih hxs (position + 1)
              exact ⟨congrArg (_ :: ·) htokens, hillegal⟩
          | connective c =>
              cases c with
              | iff =>
                  obtain ⟨htokens, hillegal⟩ := ih hxs (position + 3)
                  exact ⟨congrArg (_ :: ·) htokens, hillegal⟩
              | _ =>
                  obtain ⟨htokens, hillegal⟩ := ih hxs (position + 2)
                  exact ⟨congrArg (_ :: ·) htokens, hillegal⟩

/-- Scanning what was written finds the lexemes again, and no illegal character. -/
theorem Legible.scanFrom {xs : List Lexeme} (h : Legible xs) (position : Nat) :
    (LabelScheduler.scanFrom position (xs.flatMap (·.chars))).tokens.map Token.lexeme = xs ∧
      (LabelScheduler.scanFrom position (xs.flatMap (·.chars))).illegal = none :=
  h.scanFrom_spaced (.flatMap xs) position

/-- Lexemes that can be written have no blanks in them. -/
theorem Written.not_blank {x : Lexeme} (h : x.Written) : ∀ c ∈ x.chars, Text.isBlank c = false := by
  have hnone (hany : x.chars.any Text.isBlank = false) : ∀ c ∈ x.chars, Text.isBlank c = false := fun c hc =>
    Bool.eq_false_iff.mpr (List.any_eq_false.mp hany c hc)
  cases h with
  | @name n hn =>
      have hall : n.toList.all isAtomChar = true := (Bool.and_eq_true_iff.mp hn).2
      exact fun c hc => isBlank_of_isAtomChar (List.all_eq_true.mp hall c hc)
  | bang | opening | closing => exact hnone (by decide)
  | connective c => cases c <;> exact hnone (by decide)

/-- Lexemes that can be written have no separators in them. -/
theorem Written.not_separator {x : Lexeme} (h : x.Written) : ∀ c ∈ x.chars, isSeparator c = false := by
  intro c hc
  have hnot := h.not_blank c hc
  cases hseparator : isSeparator c with
  | false => rfl
  | true => exact nomatch hnot.symm.trans (isBlank_of_isSeparator hseparator)

namespace Spaced

variable {xs : List Lexeme} {cs cs' : List Char}

/-- Without its separators, a text is the lexemes one directly after the other. -/
theorem filter (h : Spaced xs cs) (hxs : ∀ x ∈ xs, x.Written) :
    cs.filter (!isSeparator ·) = xs.flatMap (·.chars) := by
  induction h with
  | nil => rfl
  | separator hc _ ih =>
      rw [List.filter_cons_of_neg (by simp [hc])]
      exact ih hxs
  | lexeme x _ ih =>
      rw [List.forall_mem_cons] at hxs
      rw [List.filter_append, ih hxs.2, List.flatMap_cons,
        List.filter_eq_self.mpr fun c hc => by rw [hxs.1.not_separator c hc]; rfl]

/-- All blanks of the text are separators. -/
theorem isSeparator_of_isBlank (h : Spaced xs cs) (hxs : ∀ x ∈ xs, x.Written) {c : Char} (hc : c ∈ cs)
    (hblank : Text.isBlank c = true) : isSeparator c = true := by
  induction h with
  | nil => exact nomatch hc
  | separator hseparator _ ih =>
      rcases List.mem_cons.mp hc with rfl | hc
      · exact hseparator
      · exact ih hxs hc
  | lexeme x _ ih =>
      rw [List.forall_mem_cons] at hxs
      rcases List.mem_append.mp hc with hc | hc
      · exact nomatch hblank.symm.trans (hxs.1.not_blank c hc)
      · exact ih hxs.2 hc

/-- Separators may be put in front. -/
theorem separators {before : List Char} (hbefore : ∀ c ∈ before, isSeparator c = true) (h : Spaced xs cs) :
    Spaced xs (before ++ cs) := by
  induction before with
  | nil => exact h
  | cons c before ih =>
      obtain ⟨hc, hbefore⟩ := List.forall_mem_cons.mp hbefore
      exact .separator hc (ih hbefore)

/-- Leaving out separators leaves the lexemes as they are. -/
theorem leaveOut (h : Spaced xs cs) (hxs : ∀ x ∈ xs, x.Written) (hsub : cs'.Sublist cs)
    (hcs' : cs'.filter (!isSeparator ·) = cs.filter (!isSeparator ·)) : Spaced xs cs' := by
  induction h generalizing cs' with
  | nil =>
      obtain rfl := List.sublist_nil.mp hsub
      exact .nil
  | separator hc _ ih =>
      rw [List.filter_cons_of_neg (by simp [hc])] at hcs'
      rcases List.sublist_cons_iff.mp hsub with hsub | ⟨r, rfl, hr⟩
      · exact ih hxs hsub hcs'
      · rw [List.filter_cons_of_neg (by simp [hc])] at hcs'
        exact .separator hc (ih hxs hr hcs')
  | @lexeme xs cs x h ih =>
      rw [List.forall_mem_cons] at hxs
      obtain ⟨u, v, rfl, hu, hv⟩ := List.sublist_append_iff.mp hsub
      have hkeep {w : List Char} (hw : w.Sublist x.chars) : w.filter (!isSeparator ·) = w :=
        List.filter_eq_self.mpr fun c hc => by rw [hxs.1.not_separator c (hw.subset hc)]; rfl
      rw [List.filter_append, List.filter_append, hkeep hu, hkeep (.refl _)] at hcs'
      -- neither part can have become shorter, as together they still have all characters but the separators
      have hlength := congrArg List.length hcs'
      have hv' := (hv.filter (!isSeparator ·)).length_le
      simp only [List.length_append] at hlength
      obtain rfl := hu.eq_of_length (by have := hu.length_le; omega)
      exact .lexeme x (ih hxs.2 hv (List.append_cancel_left hcs'))

end Spaced

end Lexeme

/-- Where an atom begins, it is the first token. -/
theorem scanFrom_opensAtom {cs : List Char} (h : opensAtom cs = true) (position : Nat) :
    ∃ t ts, (scanFrom position cs).tokens = t :: ts ∧ t.kind = .atom ∧ t.start = position := by
  induction cs generalizing position with
  | nil => cases h
  | cons c cs ih =>
      rw [scanFrom_inAtom h]
      split
      case isTrue hopens =>
        obtain ⟨t, ts, htokens, hkind, -⟩ := ih hopens (position + 1)
        exact ⟨⟨t.kind, c :: t.chars, position⟩, ts, by rw [Scanned.extend, htokens], hkind, rfl⟩
      case isFalse => exact ⟨_, _, rfl, rfl, rfl⟩

/-- All tokens are lexemes that can be written. -/
def Scanned.Written (s : Scanned) : Prop := ∀ t ∈ s.tokens, t.lexeme.Written

namespace Scanned.Written

variable {s : Scanned}

/-- The tokens without their places can be written. -/
theorem lexemes (h : s.Written) : ∀ x ∈ s.tokens.map Token.lexeme, x.Written :=
  List.forall_mem_map.mpr h

/-- A token that can be written may be put in front. -/
theorem push (h : s.Written) {t : Token} (ht : t.lexeme.Written) : (s.push t).Written :=
  List.forall_mem_cons.mpr ⟨ht, h⟩

/-- A character of an atom may be put in front of an atom. -/
theorem extend (h : s.Written) {c : Char} (hc : isAtomChar c = true) (position : Nat) {t : Token}
    {ts : List Token} (htokens : s.tokens = t :: ts) (hkind : t.kind = .atom) :
    (s.extend c position).Written := by
  unfold Written at h
  rw [htokens, List.forall_mem_cons] at h
  have hname : isAtomName t.chars = true := h.1.named hkind
  unfold Written Scanned.extend
  rw [htokens]
  refine List.forall_mem_cons.mpr ⟨.of_named hkind ?_, h.2⟩
  have hchars : t.chars ≠ [] ∧ t.chars.all isAtomChar = true := by simpa [isAtomName] using hname
  simpa [Token.lexeme, isAtomName, hc] using hchars.2

end Scanned.Written

/-- The tokens that scanning finds can be written. -/
theorem scanFrom_written (position : Nat) (cs : List Char) : (scanFrom position cs).Written := by
  fun_induction scanFrom position cs with
  | case1 => exact fun t ht => nomatch ht
  | case2 _ _ ih | case3 _ _ ih | case4 _ _ ih | case5 _ _ ih => exact ih.push (.connective _)
  | case6 _ _ ih => exact ih.push .bang
  | case7 _ _ ih => exact ih.push .opening
  | case8 _ _ ih => exact ih.push .closing
  | case9 _ _ _ _ _ _ _ _ _ _ _ ih => exact ih
  | case10 position c rest _ _ _ _ _ _ _ _ hin hopens ih =>
      obtain ⟨t, ts, htokens, hkind, -⟩ := scanFrom_opensAtom hopens (position + 1)
      exact ih.extend (isAtomChar_of_inAtom hin) _ htokens hkind
  | case11 _ c rest _ _ _ _ _ _ _ _ hin _ ih =>
      apply ih.push
      apply Lexeme.Written.of_named rfl
      simp [Token.lexeme, isAtomName, isAtomChar_of_inAtom hin]
  | case12 => exact fun t ht => nomatch ht

/-- A text without illegal characters is its tokens, with separators around them. -/
theorem scanFrom_spaced {position : Nat} {cs : List Char} (h : (scanFrom position cs).illegal = none) :
    Lexeme.Spaced ((scanFrom position cs).tokens.map Token.lexeme) cs := by
  fun_induction scanFrom position cs with
  | case1 => exact .nil
  | case2 _ _ ih | case3 _ _ ih | case4 _ _ ih | case5 _ _ ih | case6 _ _ ih | case7 _ _ ih | case8 _ _ ih =>
      exact .lexeme _ (ih h)
  | case9 _ _ _ _ _ _ _ _ _ _ hc ih => exact .separator hc (ih h)
  | case10 position c rest _ _ _ _ _ _ _ _ _ hopens ih =>
      obtain ⟨t, ts, htokens, -⟩ := scanFrom_opensAtom hopens (position + 1)
      unfold Scanned.extend at h ⊢
      rw [htokens] at h ih ⊢
      -- no separator stands between the character and the atom that it belongs to
      generalize hxs : (t :: ts).map Token.lexeme = xs at ih
      cases ih h with
      | nil => cases hopens
      | @separator _ d ds hd _ =>
          have hinAtom : inAtom d ds = true := hopens
          have hchar := isAtomChar_of_inAtom hinAtom
          rw [isAtomChar_border (mem_borderChars_of_isSeparator hd)] at hchar
          cases hchar
      | lexeme x hcs =>
          obtain ⟨rfl, rfl⟩ := List.cons.inj hxs
          exact .lexeme ⟨t.kind, c :: t.chars⟩ hcs
  | case11 _ c rest _ _ _ _ _ _ _ _ _ _ ih => exact .lexeme ⟨.atom, [c]⟩ (ih h)
  | case12 => cases h

end LabelScheduler
