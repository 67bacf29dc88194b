import LabelScheduler.Proofs.Label.Scan

/-!
# How a text is cut into tokens

Scanning passes over separators and cuts off one token after the other, each as long as it can be: a sign has fixed
characters, and an atom goes on as long as there are characters of an atom. It stops at the end of the text or at the
first character that is no separator and at which no token begins. So up to that point every character is in one token
or is a separator.
-/

namespace LabelScheduler

variable {text : List Char} {p i : Nat} {s : Scanned} {t : Token} {c : Char}

/-- At this position there is a character of an atom: one that atoms are written with, but no dash with a `>` behind
it. -/
def AtomAt (text : List Char) (i : Nat) : Prop :=
  ∃ c, text[i]? = some c ∧ isAtomChar c = true ∧ ¬ (c = '-' ∧ text[i + 1]? = some '>')

/-- The characters that tokens of a kind have, unless the kind has many. -/
def TokenKind.sign? : TokenKind → Option (List Char)
  | .atom => none
  | .not => some ['!']
  | .connective c => some (Operator.binary c).symbol.toList
  | .opening => some ['(']
  | .closing => some [')']

/-- A token of this kind can begin at this position: there are the characters of its sign or one character of an
atom. -/
def TokenKind.BeginsAt (k : TokenKind) (text : List Char) (i : Nat) : Prop :=
  match k.sign? with
  | some sign => sign <+: text.drop i
  | none => AtomAt text i

/-- The token stands in the text at its position and is neither shorter nor longer than its kind asks. -/
structure Token.Whole (t : Token) (text : List Char) : Prop where
  nonempty : t.chars ≠ []
  stands : t.chars <+: text.drop t.start
  sign : ∀ sign, t.kind.sign? = some sign → t.chars = sign
  atoms : t.kind = .atom → ∀ i, t.start ≤ i → i < t.stop → AtomAt text i
  ends : t.kind = .atom → ¬ AtomAt text t.stop

/-- From this position on the text is cut into these tokens, up to the illegal character if there is one. -/
inductive Cuts (text : List Char) : Nat → Scanned → Prop where
  | done {p : Nat} (hend : text.length ≤ p) : Cuts text p .nothing
  | separator {p : Nat} {c : Char} {s : Scanned} (hc : text[p]? = some c) (hseparator : isSeparator c = true)
      (h : Cuts text (p + 1) s) : Cuts text p s
  | token {p : Nat} {t : Token} {s : Scanned} (hstart : t.start = p) (ht : t.Whole text) (h : Cuts text t.stop s) :
      Cuts text p (s.push t)
  | stuck {p : Nat} {c : Char} (hc : text[p]? = some c) (hseparator : isSeparator c = false)
      (hnone : ∀ k : TokenKind, ¬ k.BeginsAt text p) : Cuts text p ⟨[], some ⟨c, p⟩⟩

/-! ### Scanning cuts the text -/

/-- What is left of a text begins with the character at the position. -/
theorem getElem?_of_drop {rest : List Char} (h : text.drop p = c :: rest) : text[p]? = some c := by
  rw [← List.head?_drop, h, List.head?_cons]

/-- What is left of a text behind its first character. -/
theorem drop_succ_of_drop {rest : List Char} (h : text.drop p = c :: rest) : text.drop (p + 1) = rest := by
  rw [← List.drop_drop, h, List.drop_one, List.tail_cons]

/-- There is a character of an atom where what is left begins with one. -/
theorem atomAt_iff : AtomAt text i ↔ opensAtom (text.drop i) = true := by
  cases h : text.drop i with
  | nil =>
      have hend : text[i]? = none := List.getElem?_eq_none (List.drop_eq_nil_iff.mp h)
      simp [AtomAt, opensAtom, hend]
  | cons c rest =>
      have hnext : text[i + 1]? = rest.head? := by rw [← drop_succ_of_drop h, List.head?_drop]
      simp only [AtomAt, getElem?_of_drop h, hnext, Option.some.injEq, exists_eq_left', opensAtom, inAtom, isAtomChar,
        Bool.or_eq_true, Bool.and_eq_true, beq_iff_eq, bne_iff_ne]
      constructor
      · rintro ⟨hchar, hplain⟩
        exact hchar.imp_right fun hdash => ⟨hdash, fun harrow => hplain ⟨hdash, harrow⟩⟩
      · intro hin
        refine ⟨hin.imp_right And.left, ?_⟩
        rintro ⟨rfl, harrow⟩
        rcases hin with (hword | hdot) | hdash
        · exact absurd hword (by decide)
        · exact absurd hdot (by decide)
        · exact hdash.2 harrow

/-- A token whose characters are those of its kind's sign is whole. -/
theorem Token.Whole.of_sign {k : TokenKind} {sign : List Char} (hsign : k.sign? = some sign) (hne : sign ≠ [])
    (hstands : sign <+: text.drop p) : (Token.mk k sign p).Whole text where
  nonempty := hne
  stands := hstands
  sign _ h := Option.some.inj (hsign.symm.trans h)
  atoms hkind := by
    obtain rfl : k = .atom := hkind
    cases hsign
  ends hkind := by
    obtain rfl : k = .atom := hkind
    cases hsign

/-- One character is an atom if the next one does not go on with it. -/
theorem Token.Whole.single (hc : text[p]? = some c) (hopens : AtomAt text p) (hends : ¬ AtomAt text (p + 1)) :
    (Token.mk .atom [c] p).Whole text where
  nonempty := List.cons_ne_nil _ _
  stands := by
    obtain ⟨hp, rfl⟩ := List.getElem?_eq_some_iff.mp hc
    exact ⟨text.drop (p + 1), (List.drop_eq_getElem_cons hp).symm⟩
  sign := nofun
  atoms _ i hi hi' := by
    obtain rfl : i = p := Nat.le_antisymm (Nat.le_of_lt_succ hi') hi
    exact hopens
  ends _ := hends

/-- A token with one more character in front ends where it did. -/
theorem Token.stop_extend (hstart : t.start = p + 1) (c : Char) :
    (Token.mk t.kind (c :: t.chars) p).stop = t.stop := by
  simp only [Token.stop, List.length_cons, hstart]
  omega

/-- An atom may have one more character in front. -/
theorem Token.Whole.extend (h : t.Whole text) (hkind : t.kind = .atom) (hstart : t.start = p + 1)
    (hc : text[p]? = some c) (hopens : AtomAt text p) : (Token.mk t.kind (c :: t.chars) p).Whole text := by
  have hstop := Token.stop_extend hstart c
  refine ⟨List.cons_ne_nil _ _, ?_, ?_, fun _ i hi hi' => ?_, fun _ => hstop ▸ h.ends hkind⟩
  · obtain ⟨hp, rfl⟩ := List.getElem?_eq_some_iff.mp hc
    rw [List.drop_eq_getElem_cons hp, ← hstart]
    exact (List.prefix_cons_inj _).mpr h.stands
  · intro sign hsign
    rw [show (Token.mk t.kind (c :: t.chars) p).kind = .atom from hkind] at hsign
    cases hsign
  · rcases Nat.eq_or_lt_of_le hi with rfl | hlt
    · exact hopens
    · exact h.atoms hkind i (hstart ▸ hlt) (hstop ▸ hi')

/-- Where an atom begins, the text is cut off there. -/
theorem Cuts.atom (h : Cuts text p s) (hopens : AtomAt text p) :
    ∃ t rest, s = rest.push t ∧ t.start = p ∧ t.Whole text ∧ Cuts text t.stop rest := by
  obtain ⟨c, hc, hchar, -⟩ := id hopens
  cases h with
  | done hend => exact nomatch (List.getElem?_eq_none hend).symm.trans hc
  | separator hc' hseparator _ =>
      obtain rfl := Option.some.inj (hc.symm.trans hc')
      exact nomatch (isSeparator_of_isAtomChar hchar).symm.trans hseparator
  | token hstart ht hrest => exact ⟨_, _, rfl, hstart, ht, hrest⟩
  | stuck _ _ hnone => exact absurd hopens (hnone .atom)

/-- What is scanned is cut off the text in which it stands. -/
theorem scanFrom_cuts {cs : List Char} (hcs : text.drop p = cs) : Cuts text p (scanFrom p cs) := by
  have hsign {p : Nat} {k : TokenKind} (sign : List Char) {rest : List Char} (hk : k.sign? = some sign)
      (hne : sign ≠ []) (hcs : text.drop p = sign ++ rest)
      (ih : text.drop (p + sign.length) = rest → Cuts text (p + sign.length) (scanFrom (p + sign.length) rest)) :
      Cuts text p ((scanFrom (p + sign.length) rest).push ⟨k, sign, p⟩) := by
    have hrest : text.drop (p + sign.length) = rest := by rw [← List.drop_drop, hcs, List.drop_left]
    exact .token rfl (.of_sign hk hne ⟨rest, hcs.symm⟩) (ih hrest)
  fun_induction scanFrom p cs with
  | case1 => exact .done (List.drop_eq_nil_iff.mp hcs)
  | case2 _ _ ih => exact hsign ['<', '-', '>'] rfl (List.cons_ne_nil _ _) hcs ih
  | case3 _ _ ih => exact hsign ['-', '>'] rfl (List.cons_ne_nil _ _) hcs ih
  | case4 _ _ ih => exact hsign ['&', '&'] rfl (List.cons_ne_nil _ _) hcs ih
  | case5 _ _ ih => exact hsign ['|', '|'] rfl (List.cons_ne_nil _ _) hcs ih
  | case6 _ _ ih => exact hsign ['!'] rfl (List.cons_ne_nil _ _) hcs ih
  | case7 _ _ ih => exact hsign ['('] rfl (List.cons_ne_nil _ _) hcs ih
  | case8 _ _ ih => exact hsign [')'] rfl (List.cons_ne_nil _ _) hcs ih
  | case9 p c rest _ _ _ _ _ _ _ hseparator ih =>
      exact .separator (getElem?_of_drop hcs) hseparator (ih (drop_succ_of_drop hcs))
  | case10 p c rest _ _ _ _ _ _ _ _ hin hopens ih =>
      have hrest := drop_succ_of_drop hcs
      have hatom : AtomAt text p := atomAt_iff.mpr (hcs ▸ hin)
      obtain ⟨t, s, hscan, hstart, ht, hs⟩ := (ih hrest).atom (atomAt_iff.mpr (hrest ▸ hopens))
      obtain ⟨t', ts, htokens, hkind, -⟩ := scanFrom_opensAtom hopens (p + 1)
      have hfirst : t = t' := by
        rw [hscan] at htokens
        exact (List.cons.inj htokens).1
      rw [hscan]
      exact .token rfl (ht.extend (hfirst ▸ hkind) hstart (getElem?_of_drop hcs) hatom)
        ((Token.stop_extend hstart c).symm ▸ hs)
  | case11 p c rest _ _ _ _ _ _ _ _ hin hopens ih =>
      have hrest := drop_succ_of_drop hcs
      have hatom : AtomAt text p := atomAt_iff.mpr (hcs ▸ hin)
      have hends : ¬ AtomAt text (p + 1) := fun h => hopens (hrest ▸ atomAt_iff.mp h)
      exact .token rfl (.single (getElem?_of_drop hcs) hatom hends) (ih hrest)
  | case12 p c rest hiff himplies hand hor hnot hopening hclosing hseparator hin =>
      refine .stuck (getElem?_of_drop hcs) (Bool.eq_false_iff.mpr hseparator) fun k hk => ?_
      have hbegins {sign : List Char} (hsign : k.sign? = some sign) : sign <+: c :: rest := by
        rw [← hcs]
        simpa only [TokenKind.BeginsAt, hsign] using hk
      cases k with
      | atom =>
          have hopens : opensAtom (c :: rest) = true := hcs ▸ atomAt_iff.mp hk
          exact hin hopens
      | not => exact hnot (List.cons_prefix_cons.mp (hbegins rfl)).1.symm
      | opening => exact hopening (List.cons_prefix_cons.mp (hbegins rfl)).1.symm
      | closing => exact hclosing (List.cons_prefix_cons.mp (hbegins rfl)).1.symm
      | connective op =>
          obtain ⟨rest', hrest⟩ := hbegins rfl
          cases op with
          | and => exact hand rest' (List.cons.inj hrest).1.symm (List.cons.inj hrest).2.symm
          | or => exact hor rest' (List.cons.inj hrest).1.symm (List.cons.inj hrest).2.symm
          | implies => exact himplies rest' (List.cons.inj hrest).1.symm (List.cons.inj hrest).2.symm
          | iff => exact hiff rest' (List.cons.inj hrest).1.symm (List.cons.inj hrest).2.symm

/-! ### Positions -/

namespace Scanned

/-- How far the text is cut: up to the illegal character, or to the end. -/
def reach (s : Scanned) (text : List Char) : Nat := (s.illegal.map IllegalChar.position).getD text.length

/-- The position is in one of the tokens. -/
def Covers (s : Scanned) (i : Nat) : Prop := ∃ t ∈ s.tokens, t.start ≤ i ∧ i < t.stop

/-- At this position there is a character that is no separator and in no token, and no token can begin. -/
def StuckAt (s : Scanned) (text : List Char) (i : Nat) : Prop :=
  ∃ c, text[i]? = some c ∧ isSeparator c = false ∧ ¬ s.Covers i ∧ ∀ k : TokenKind, ¬ k.BeginsAt text i

end Scanned

namespace Token.Whole

/-- A whole token ends behind its position. -/
theorem start_lt_stop (h : t.Whole text) : t.start < t.stop :=
  Nat.lt_add_of_pos_right (List.length_pos_iff.mpr h.nonempty)

/-- A whole token ends within the text. -/
theorem stop_le (h : t.Whole text) : t.stop ≤ text.length := by
  have hlength := h.stands.length_le
  have hpos := List.length_pos_iff.mpr h.nonempty
  rw [List.length_drop] at hlength
  simp only [Token.stop]
  omega

/-- A whole token has the characters between its ends. -/
theorem extract (h : t.Whole text) : text.extract t.start t.stop = t.chars := by
  rw [List.extract, Token.stop, Nat.add_sub_cancel_left]
  exact (List.prefix_iff_eq_take.mp h.stands).symm

/-- A whole token can begin where it does. -/
theorem beginsAt (h : t.Whole text) : t.kind.BeginsAt text t.start := by
  unfold TokenKind.BeginsAt
  split
  case h_1 sign hsign => exact h.sign sign hsign ▸ h.stands
  case h_2 hnone =>
    have hkind : t.kind = .atom := by
      cases hkind : t.kind <;> simp [hkind, TokenKind.sign?] at hnone ⊢
    exact h.atoms hkind _ (Nat.le_refl _) h.start_lt_stop

end Token.Whole

namespace Cuts

/-- The text is cut from the position on, not before. -/
theorem le_reach (h : Cuts text p s) (hp : p ≤ text.length) : p ≤ s.reach text := by
  induction h with
  | done => exact hp
  | separator hc _ _ ih =>
      have hlt := (List.getElem?_eq_some_iff.mp hc).1
      exact Nat.le_of_succ_le (ih hlt)
  | @token p t _ hstart ht _ ih =>
      have hle : p ≤ t.stop := hstart ▸ Nat.le_of_lt ht.start_lt_stop
      exact Nat.le_trans hle (ih ht.stop_le)
  | stuck => exact Nat.le_refl _

/-- Every token is whole, and between the position and the point up to which the text is cut. -/
theorem whole (h : Cuts text p s) : ∀ t ∈ s.tokens, t.Whole text ∧ p ≤ t.start ∧ t.stop ≤ s.reach text := by
  induction h with
  | done | stuck => exact fun t ht => absurd ht List.not_mem_nil
  | separator _ _ _ ih => exact fun t ht => ⟨(ih t ht).1, Nat.le_of_succ_le (ih t ht).2.1, (ih t ht).2.2⟩
  | @token p t _ hstart ht h ih =>
      have hle : p ≤ t.stop := hstart ▸ Nat.le_of_lt ht.start_lt_stop
      refine List.forall_mem_cons.mpr ⟨⟨ht, Nat.le_of_eq hstart.symm, h.le_reach ht.stop_le⟩, fun u hu => ?_⟩
      obtain ⟨hwhole, hlater, hreach⟩ := ih u hu
      exact ⟨hwhole, Nat.le_trans hle hlater, hreach⟩

/-- Every token ends before the next one begins. -/
theorem ordered (h : Cuts text p s) : s.tokens.Pairwise fun t u => t.stop ≤ u.start := by
  induction h with
  | done | stuck => exact .nil
  | separator _ _ _ ih => exact ih
  | token _ _ h ih => exact List.pairwise_cons.mpr ⟨fun u hu => (h.whole u hu).2.1, ih⟩

/-- As far as the text is cut, what is in no token is a separator. -/
theorem separator_of_not_covers (h : Cuts text p s) (hp : p ≤ i) (hi : i < s.reach text) (hi' : ¬ s.Covers i) :
    ∃ c, text[i]? = some c ∧ isSeparator c = true := by
  induction h with
  | done hend => exact absurd (Nat.le_trans hend hp) (Nat.not_le.mpr hi)
  | separator hc hseparator _ ih =>
      rcases Nat.eq_or_lt_of_le hp with rfl | hlt
      · exact ⟨_, hc, hseparator⟩
      · exact ih hlt hi hi'
  | @token p t s hstart ht _ ih =>
      have hbehind : t.stop ≤ i := Nat.not_lt.mp fun hlt => hi' ⟨t, List.mem_cons_self, hstart ▸ hp, hlt⟩
      exact ih hbehind hi fun ⟨u, hu, hcovers⟩ => hi' ⟨u, List.mem_cons_of_mem _ hu, hcovers⟩
  | stuck => exact absurd hp (Nat.not_le.mpr hi)

/-- At the illegal character the text could not be cut any further. -/
theorem stuckAt (h : Cuts text p s) {i : IllegalChar} (hi : s.illegal = some i) :
    text[i.position]? = some i.char ∧ s.StuckAt text i.position := by
  have hplace : text[i.position]? = some i.char ∧ isSeparator i.char = false ∧
      ∀ k : TokenKind, ¬ k.BeginsAt text i.position := by
    induction h with
    | done => cases hi
    | separator _ _ _ ih | token _ _ _ ih => exact ih hi
    | stuck hc hseparator hnone =>
        obtain rfl := Option.some.inj hi
        exact ⟨hc, hseparator, hnone⟩
  refine ⟨hplace.1, i.char, hplace.1, hplace.2.1, ?_, hplace.2.2⟩
  rintro ⟨t, ht, -, hlt⟩
  have hreach := (h.whole t ht).2.2
  rw [Scanned.reach, hi] at hreach
  exact absurd hlt (Nat.not_lt.mpr hreach)

end Cuts

/-- The tokens of a text stand one behind the other, each with the characters between its ends and where a token of its
kind can begin, and every character that is in none of them, as far as the text is scanned, is a separator. An atom has
only characters of atoms, and no such character follows it. Scanning stops exactly at the first position, if there is
one, with a character that is no separator and in no token, and at which no token can begin. -/
theorem scan_lossless (text : List Char) :
    let s := scan text
    s.tokens.Pairwise (fun t u => t.stop ≤ u.start) ∧
    (∀ t ∈ s.tokens, t.start < t.stop ∧ t.stop ≤ s.reach text ∧ text.extract t.start t.stop = t.chars ∧
      t.kind.BeginsAt text t.start ∧ ∀ sign, t.kind.sign? = some sign → t.chars = sign) ∧
    (∀ i < s.reach text, ¬ s.Covers i → ∃ c, text[i]? = some c ∧ isSeparator c = true) ∧
    (∀ t ∈ s.tokens, t.kind = .atom →
      (∀ i, t.start ≤ i → i < t.stop → AtomAt text i) ∧ ¬ AtomAt text t.stop) ∧
    (∀ i : IllegalChar, s.illegal = some i ↔ text[i.position]? = some i.char ∧ s.StuckAt text i.position ∧
      ∀ j < i.position, ¬ s.StuckAt text j) := by
  intro s
  have hcuts : Cuts text 0 s := scanFrom_cuts rfl
  have hbefore {j : Nat} (hj : j < s.reach text) : ¬ s.StuckAt text j := by
    rintro ⟨c, hc, hplain, hcovers, -⟩
    obtain ⟨c', hc', hseparator⟩ := hcuts.separator_of_not_covers (Nat.zero_le j) hj hcovers
    obtain rfl := Option.some.inj (hc.symm.trans hc')
    exact nomatch hplain.symm.trans hseparator
  refine ⟨hcuts.ordered, fun t ht => ?_, fun i hi => hcuts.separator_of_not_covers (Nat.zero_le i) hi,
    fun t ht hkind => ?_, fun i => ⟨fun hi => ?_, fun ⟨hi, hstuck, hfirst⟩ => ?_⟩⟩
  · obtain ⟨hwhole, -, hreach⟩ := hcuts.whole t ht
    exact ⟨hwhole.start_lt_stop, hreach, hwhole.extract, hwhole.beginsAt, hwhole.sign⟩
  · obtain ⟨hwhole, -⟩ := hcuts.whole t ht
    exact ⟨hwhole.atoms hkind, hwhole.ends hkind⟩
  · obtain ⟨hc, hstuck⟩ := hcuts.stuckAt hi
    have hreach : s.reach text = i.position := by rw [Scanned.reach, hi]; rfl
    exact ⟨hc, hstuck, fun j hj => hbefore (hreach ▸ hj)⟩
  · cases hillegal : s.illegal with
    | none =>
        have hreach : s.reach text = text.length := by rw [Scanned.reach, hillegal]; rfl
        exact absurd hstuck (hbefore (hreach ▸ (List.getElem?_eq_some_iff.mp hi).1))
    | some i' =>
        have hreach : s.reach text = i'.position := by rw [Scanned.reach, hillegal]; rfl
        obtain ⟨hc, hstuck'⟩ := hcuts.stuckAt hillegal
        have hle : i'.position ≤ i.position := Nat.not_lt.mp fun hlt => hbefore (hreach ▸ hlt) hstuck
        have hge : i.position ≤ i'.position := Nat.not_lt.mp fun hlt => hfirst _ hlt hstuck'
        have hposition : i'.position = i.position := Nat.le_antisymm hle hge
        have hchar : i'.char = i.char := Option.some.inj (hc.symm.trans (hposition ▸ hi))
        rw [show i' = i from congr (congrArg IllegalChar.mk hchar) hposition]

/-- Of several dashes before a `>` only the last one is left to the arrow. -/
example : (scan ['a', '-', '-', '-', '>', 'b']).tokens =
    [⟨.atom, ['a', '-', '-'], 0⟩, ⟨.connective .implies, ['-', '>'], 3⟩, ⟨.atom, ['b'], 5⟩] := by
  decide

end LabelScheduler
