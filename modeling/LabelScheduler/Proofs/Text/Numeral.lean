import LabelScheduler.Text.Numeral
import LabelScheduler.Proofs.Text.Blank
import Mathlib.Algebra.Group.Nat.Defs
import Mathlib.Data.Nat.Digits.Defs

/-!
# Which texts are whole numbers

A numeral is digits of any script with at most one sign in front, and its value is that of the digits by powers of ten.
Reading succeeds exactly for numerals with blanks around them. Every number is written in Western digits, and read back
from them unless there are too many.
-/

namespace LabelScheduler.Text

variable {c : Char} {cs : List Char}

/-! ### Numerals -/

/-- The text is decimal digits of any script with these values, the most significant first; a single low line may
stand between two of them. -/
inductive Digits : List Char → List Nat → Prop where
  | last {c : Char} {d : Nat} (hc : digitValue? c = some d) : Digits [c] [d]
  | next {c : Char} {d : Nat} {cs : List Char} {ds : List Nat} (hc : digitValue? c = some d) (h : Digits cs ds) :
      Digits (c :: cs) (d :: ds)
  | lowLine {c : Char} {d : Nat} {cs : List Char} {ds : List Nat} (hc : digitValue? c = some d) (h : Digits cs ds) :
      Digits (c :: '_' :: cs) (d :: ds)

/-- The text is a whole number in decimal: digits of any script, not too many, with at most one sign in front. -/
inductive Numeral : List Char → Int → Prop where
  | unsigned {cs : List Char} {ds : List Nat} (h : Digits cs ds) (hshort : ds.length ≤ numeralLimit) :
      Numeral cs (Nat.ofDigits 10 ds.reverse : Nat)
  | plus {cs : List Char} {ds : List Nat} (h : Digits cs ds) (hshort : ds.length ≤ numeralLimit) :
      Numeral ('+' :: cs) (Nat.ofDigits 10 ds.reverse : Nat)
  | minus {cs : List Char} {ds : List Nat} (h : Digits cs ds) (hshort : ds.length ≤ numeralLimit) :
      Numeral ('-' :: cs) (-(Nat.ofDigits 10 ds.reverse : Nat))

/-- Digits begin with a digit. -/
theorem Digits.exists_cons {ds : List Nat} (h : Digits cs ds) :
    ∃ c cs' d ds', cs = c :: cs' ∧ ds = d :: ds' ∧ digitValue? c = some d := by
  cases h with
  | last hc | next hc _ | lowLine hc _ => exact ⟨_, _, _, _, rfl, rfl, hc⟩

/-- All of a text is read as digits exactly if it is empty or digits. -/
theorem leadingDigits_eq_some_iff {ds : List Nat} :
    leadingDigits cs = some (ds, []) ↔ cs = [] ∧ ds = [] ∨ Digits cs ds := by
  constructor
  · intro h
    fun_induction leadingDigits cs generalizing ds with
    | case1 =>
        cases h
        exact .inl ⟨rfl, rfl⟩
    | case2 | case4 | case5 => cases h
    | case3 c rest d hc e es tail hrest ih =>
        cases h
        rcases ih hrest with ⟨-, hnone⟩ | hdigits
        · cases hnone
        · exact .inr (.lowLine hc hdigits)
    | case6 c cs _ d hc ih =>
        obtain ⟨⟨es, tail⟩, hrest, heq⟩ := Option.map_eq_some_iff.mp h
        cases heq
        rcases ih hrest with ⟨rfl, hnone⟩ | hdigits
        · obtain rfl : es = [] := hnone
          exact .inr (.last hc)
        · exact .inr (.next hc hdigits)
  · rintro (⟨rfl, rfl⟩ | h)
    · rfl
    · induction h with
      | last hc => simp [leadingDigits, hc]
      | @next c d cs ds hc h ih =>
          have hplain : ∀ rest, cs = '_' :: rest → False := by
            rintro rest rfl
            obtain ⟨c', _, _, _, hcs, -, hc'⟩ := h.exists_cons
            obtain rfl := (List.cons.inj hcs).1
            exact nomatch (by decide : digitValue? '_' = none).symm.trans hc'
          rw [leadingDigits, hc, ih]
          · rfl
          · exact hplain
      | @lowLine c d cs ds hc h ih =>
          obtain ⟨_, _, e, es, -, rfl, -⟩ := h.exists_cons
          rw [leadingDigits, hc, ih]

/-- The value of digits by powers of ten. -/
theorem digitsValue_eq_ofDigits (ds : List Nat) : digitsValue ds = Nat.ofDigits 10 ds.reverse := by
  rw [digitsValue, Nat.ofDigits_eq_foldr, List.foldr_reverse]
  congr 1
  funext n d
  exact Nat.add_comm _ _

/-- Digits are no sign. -/
theorem Digits.splitSign {ds : List Nat} (h : Digits cs ds) : splitSign cs = (false, cs) := by
  obtain ⟨c, cs, _, _, rfl, -, hc⟩ := h.exists_cons
  unfold Text.splitSign
  split
  case h_1 heq =>
    obtain rfl := (List.cons.inj heq).1
    exact nomatch (by decide : digitValue? '-' = none).symm.trans hc
  case h_2 heq =>
    obtain rfl := (List.cons.inj heq).1
    exact nomatch (by decide : digitValue? '+' = none).symm.trans hc
  case h_3 => rfl

/-- Decimal digits are less than ten. -/
theorem digitValue?_lt {d : Nat} (h : digitValue? c = some d) : d < 10 := by
  obtain ⟨z, hz, rfl⟩ := Option.map_eq_some_iff.mp h
  have hrange := List.find?_some hz
  simp only [Bool.and_eq_true, decide_eq_true_eq] at hrange
  omega

/-- All digits are decimal. -/
theorem Digits.lt_ten {ds : List Nat} (h : Digits cs ds) : ∀ d ∈ ds, d < 10 := by
  induction h with
  | last hc => exact List.forall_mem_singleton.mpr (digitValue?_lt hc)
  | next hc _ ih | lowLine hc _ ih => exact List.forall_mem_cons.mpr ⟨digitValue?_lt hc, ih⟩

/-- The digits of a numeral are not too many, so its value is not too large. -/
theorem Numeral.natAbs_lt {n : Int} (h : Numeral cs n) : n.natAbs < 10 ^ numeralLimit := by
  have hvalue {cs : List Char} {ds : List Nat} (hdigits : Digits cs ds) (hshort : ds.length ≤ numeralLimit) :
      Nat.ofDigits 10 ds.reverse < 10 ^ numeralLimit := by
    have hlt : Nat.ofDigits 10 ds.reverse < 10 ^ ds.reverse.length :=
      Nat.ofDigits_lt_base_pow_length (by decide) fun d hd => hdigits.lt_ten d (List.mem_reverse.mp hd)
    rw [List.length_reverse] at hlt
    exact hlt.trans_le (Nat.pow_le_pow_right (by decide) hshort)
  cases h with
  | unsigned hdigits hshort | plus hdigits hshort => exact hvalue hdigits hshort
  | minus hdigits hshort =>
      rw [Int.natAbs_neg]
      exact hvalue hdigits hshort

/-- A sign is the first character of a text or not there at all. -/
theorem splitSign_cases (cs : List Char) :
    (∃ rest, cs = '-' :: rest ∧ splitSign cs = (true, rest)) ∨
      (∃ rest, cs = '+' :: rest ∧ splitSign cs = (false, rest)) ∨ splitSign cs = (false, cs) := by
  unfold splitSign
  split
  case h_1 rest => exact .inl ⟨rest, rfl, rfl⟩
  case h_2 rest => exact .inr (.inl ⟨rest, rfl, rfl⟩)
  case h_3 => exact .inr (.inr rfl)

/-- A text is read as a number if what follows the sign is digits, not too many. -/
theorem readNumeral_eq_ok_iff_digits {s : String} {n : Int} {signed : Bool × List Char}
    (hsigned : splitSign (trimBoth isNumeralBlank s.toList) = signed) :
    readNumeral s = .ok n ↔ ∃ ds, Digits signed.2 ds ∧ ds.length ≤ numeralLimit ∧
      n = if signed.1 then -(digitsValue ds : Int) else digitsValue ds := by
  simp only [readNumeral, hsigned]
  constructor
  · intro h
    split at h
    case h_1 | h_2 => cases h
    case h_3 d ds rest hread =>
      split at h
      case isTrue => cases h
      case isFalse hshort =>
        split at h
        case isFalse => cases h
        case isTrue hrest =>
          rw [List.isEmpty_iff.mp hrest] at hread
          rcases leadingDigits_eq_some_iff.mp hread with ⟨-, hnone⟩ | hdigits
          · cases hnone
          · exact ⟨d :: ds, hdigits, Nat.le_of_not_lt hshort, (Except.ok.inj h).symm⟩
  · rintro ⟨ds, hdigits, hshort, rfl⟩
    have hread := leadingDigits_eq_some_iff.mpr (.inr hdigits)
    obtain ⟨_, _, d, ds, -, rfl, -⟩ := hdigits.exists_cons
    rw [hread]
    simp only [Nat.not_lt.mpr hshort, if_false, List.isEmpty_nil, if_true]

/-- The texts that are read as numbers are the numerals with blanks around them. -/
theorem readNumeral_eq_ok_iff {s : String} {n : Int} :
    readNumeral s = .ok n ↔ Numeral (trimBoth isNumeralBlank s.toList) n := by
  rw [readNumeral_eq_ok_iff_digits rfl]
  generalize trimBoth isNumeralBlank s.toList = cs
  have hvalue {ds : List Nat} : (digitsValue ds : Int) = (Nat.ofDigits 10 ds.reverse : Nat) :=
    congrArg Nat.cast (digitsValue_eq_ofDigits ds)
  constructor
  · rintro ⟨ds, hdigits, hshort, rfl⟩
    rcases splitSign_cases cs with ⟨rest, rfl, hsign⟩ | ⟨rest, rfl, hsign⟩ | hsign
    all_goals rw [hsign] at hdigits ⊢; simp only [hvalue]
    · exact .minus hdigits hshort
    · exact .plus hdigits hshort
    · exact .unsigned hdigits hshort
  · intro h
    cases h with
    | unsigned hdigits hshort =>
        rw [hdigits.splitSign]
        exact ⟨_, hdigits, hshort, hvalue.symm⟩
    | plus hdigits hshort => exact ⟨_, hdigits, hshort, hvalue.symm⟩
    | minus hdigits hshort => exact ⟨_, hdigits, hshort, congrArg _ hvalue.symm⟩

/-! ### Western digits -/

/-- The code points of the Western digits. -/
theorem isDigit_iff : c.isDigit = true ↔ 0x30 ≤ c.toNat ∧ c.toNat ≤ 0x39 := by
  simp [Char.isDigit, UInt32.le_iff_toNat_le]

/-- The Western digits are the first ones in the table. -/
theorem digitValue?_of_isDigit (h : c.isDigit = true) : digitValue? c = some (c.toNat - '0'.toNat) := by
  rw [digitValue?, zeroDigits, List.find?_cons_of_pos (by simpa using isDigit_iff.mp h)]
  rfl

/-- A Western digit is no blank. -/
theorem isBlank_of_isDigit (h : c.isDigit = true) : isBlank c = false := by
  have hrange := isDigit_iff.mp h
  simp only [isBlank, CharRanges.has, blankRanges, List.any_cons, List.any_nil, Bool.or_false,
    Bool.or_eq_false_iff, Bool.and_eq_false_iff, decide_eq_false_iff_not]
  omega

/-- A Western digit is no blank around a numeral. -/
theorem isNumeralBlank_of_isDigit (h : c.isDigit = true) : isNumeralBlank c = false := by
  rw [isNumeralBlank, isBlank_of_isDigit h, Bool.false_and]

/-- Western digits alone are all read, each for its value. -/
theorem leadingDigits_of_isDigit (h : ∀ c ∈ cs, c.isDigit = true) :
    leadingDigits cs = some (cs.map fun c => c.toNat - '0'.toNat, []) := by
  induction cs with
  | nil => rfl
  | cons c cs ih =>
      obtain ⟨hc, hcs⟩ := List.forall_mem_cons.mp h
      have hlow : ∀ rest, cs ≠ '_' :: rest := by
        rintro rest rfl
        exact absurd (hcs '_' List.mem_cons_self) (by decide)
      rw [leadingDigits, digitValue?_of_isDigit hc, ih hcs]
      · rfl
      · exact fun rest hrest => hlow rest hrest

/-- Western digits have no sign in front of them. -/
theorem splitSign_of_isDigit (h : ∀ c ∈ cs, c.isDigit = true) : splitSign cs = (false, cs) := by
  unfold splitSign
  split
  case h_1 => exact absurd (h '-' List.mem_cons_self) (by decide)
  case h_2 => exact absurd (h '+' List.mem_cons_self) (by decide)
  case h_3 => rfl

/-- The digits of a number in decimal stand for the number. -/
theorem digitsValue_toDigits (n : Nat) :
    digitsValue ((Nat.toDigits 10 n).map fun c => c.toNat - '0'.toNat) = n := by
  rw [digitsValue, List.foldl_map, ← Nat.ofDigitChars_eq_foldl]
  exact Nat.ofDigitChars_toDigits (by decide) (by decide)

/-- A number is written with Western digits. -/
theorem toList_toString (n : Nat) : (toString n).toList = Nat.toDigits 10 n := by
  rw [Nat.toString_eq_repr, Nat.toList_repr]

/-- Every character of a number in decimal is a Western digit. -/
theorem isDigit_of_mem_toDigits {n : Nat} (hc : c ∈ Nat.toDigits 10 n) : c.isDigit = true :=
  Nat.isDigit_of_mem_toDigits (by decide) (by decide) hc

/-- A number in decimal is read back unless it has too many digits. -/
theorem readNumeral_toString (n : Nat) : readNumeral (toString n) =
    if 10 ^ numeralLimit ≤ n then .error (.tooLong (toString n).length) else .ok (n : Int) := by
  have hdigits : ∀ c ∈ Nat.toDigits 10 n, c.isDigit = true := fun c => isDigit_of_mem_toDigits
  have htrim : trimBoth isNumeralBlank (Nat.toDigits 10 n) = Nat.toDigits 10 n :=
    trimBoth_eq_self fun c hc => isNumeralBlank_of_isDigit (hdigits c hc)
  have hlong : numeralLimit < (Nat.toDigits 10 n).length ↔ 10 ^ numeralLimit ≤ n := by
    have hshort := Nat.length_toDigits_le_iff (n := n) (by decide : 1 < 10) (by decide : 0 < numeralLimit)
    rw [← not_iff_not, not_lt, not_le, hshort]
  have hlength : (toString n).length = (Nat.toDigits 10 n).length := by
    rw [← String.length_toList, toList_toString]
  have hvalue := digitsValue_toDigits n
  rw [readNumeral, toList_toString, htrim, splitSign_of_isDigit hdigits, leadingDigits_of_isDigit hdigits, hlength]
  cases hwritten : Nat.toDigits 10 n with
  | nil => exact absurd hwritten Nat.toDigits_ne_nil
  | cons c cs =>
      rw [hwritten] at hvalue hlong
      simp only [List.map_cons, List.length_cons, List.length_map] at hvalue hlong ⊢
      simp only [hlong, hvalue, List.isEmpty_nil, if_true, Bool.false_eq_true, if_false]

end LabelScheduler.Text
