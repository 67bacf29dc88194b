import LabelScheduler.Text.Blank
import Mathlib.Data.List.DropRight
import Mathlib.Data.List.Infix

/-!
# Trimmed texts and their pieces

Trimming takes off the ends only, so a trimmed text has nothing more to take off, and a text without blanks at its ends
is trimmed already. The pieces of a text have no separator in them, and with the separators between them they are the
text again.
-/

namespace LabelScheduler.Text

variable {p q : Char → Bool} {sep c : Char} {cs ds : List Char}

/-- Characters none of which is taken off at an end stay as they are. -/
theorem trimBoth_eq_self (h : ∀ c ∈ cs, p c = false) : trimBoth p cs = cs := by
  have hfront : cs.dropWhile p = cs :=
    List.dropWhile_eq_self_iff.mpr fun hcs => Bool.eq_false_iff.mp (h _ (List.getElem_mem hcs))
  have hback : cs.rdropWhile p = cs :=
    List.rdropWhile_eq_self_iff.mpr fun hcs => Bool.eq_false_iff.mp (h _ (List.getLast_mem hcs))
  change (cs.dropWhile p).rdropWhile p = cs
  rw [hfront, hback]

/-- What is taken off at the front before is not missed when a text is trimmed. -/
theorem trimBoth_dropWhile (p : Char → Bool) (cs : List Char) : trimBoth p (cs.dropWhile p) = trimBoth p cs := by
  rw [trimBoth, trimBoth, List.dropWhile_idempotent]

/-- Trimming does not go beyond a character that is not taken off, nor beyond those at the end of the text. -/
theorem trimBoth_append_cons (cs : List Char) (hc : p c = false) (hds : ∀ d ∈ ds, p d = false) :
    trimBoth p (cs ++ c :: ds) = cs.dropWhile p ++ c :: ds := by
  have hfront : (cs ++ c :: ds).dropWhile p = cs.dropWhile p ++ c :: ds := by
    rw [List.dropWhile_append, List.dropWhile_cons_of_neg (Bool.eq_false_iff.mp hc)]
    split
    case isTrue hempty => rw [List.isEmpty_iff.mp hempty, List.nil_append]
    case isFalse => rfl
  have hback : (cs.dropWhile p ++ c :: ds).rdropWhile p = cs.dropWhile p ++ c :: ds := by
    refine List.rdropWhile_eq_self_iff.mpr fun _ => Bool.eq_false_iff.mp ?_
    rw [List.getLast_append_of_right_ne_nil _ _ (List.cons_ne_nil c ds)]
    have hkept : ∀ d ∈ c :: ds, p d = false := List.forall_mem_cons.mpr ⟨hc, hds⟩
    exact hkept _ (List.getLast_mem _)
  rw [trimBoth, hfront]
  exact hback

/-- After trimming, a class of characters that are all trimmed has none at the ends. -/
theorem trimBoth_trimBoth_of_imp (h : ∀ c, q c = true → p c = true) (cs : List Char) :
    trimBoth q (trimBoth p cs) = trimBoth p cs := by
  have hfront : ((cs.dropWhile p).rdropWhile p).dropWhile q = (cs.dropWhile p).rdropWhile p := by
    have hshorter := List.rdropWhile_prefix p (cs.dropWhile p)
    refine List.dropWhile_eq_self_iff.mpr fun hcs hq => ?_
    rw [hshorter.getElem hcs] at hq
    have hlength := Nat.lt_of_lt_of_le hcs hshorter.length_le
    exact List.dropWhile_eq_self_iff.mp (List.dropWhile_idempotent p cs) hlength (h _ hq)
  have hback : ((cs.dropWhile p).rdropWhile p).rdropWhile q = (cs.dropWhile p).rdropWhile p := by
    refine List.rdropWhile_eq_self_iff.mpr fun hcs hq => ?_
    exact List.rdropWhile_eq_self_iff.mp (List.rdropWhile_idempotent p _) hcs (h _ hq)
  change (((cs.dropWhile p).rdropWhile p).dropWhile q).rdropWhile q = (cs.dropWhile p).rdropWhile p
  rw [hfront, hback]

/-- Trimming leaves nothing exactly if everything can be taken off. -/
theorem trimBoth_eq_nil_iff : trimBoth p cs = [] ↔ ∀ c ∈ cs, p c = true := by
  change (cs.dropWhile p).rdropWhile p = [] ↔ ∀ c ∈ cs, p c = true
  rw [List.rdropWhile_eq_nil_iff]
  refine ⟨fun h c hc => ?_, fun h c hc => h c ((List.dropWhile_suffix p).subset hc)⟩
  rw [← List.takeWhile_append_dropWhile (p := p) (l := cs), List.mem_append] at hc
  exact hc.elim List.mem_takeWhile_imp (h c)

/-- Trimming adds no characters. -/
theorem trimBoth_subset (p : Char → Bool) (cs : List Char) : trimBoth p cs ⊆ cs := by
  have hfront := (List.dropWhile_suffix p : cs.dropWhile p <:+ cs)
  exact fun c hc => hfront.subset ((List.rdropWhile_prefix p (cs.dropWhile p)).subset hc)

/-- A trimmed text stays as it is. -/
theorem trim_trim (s : String) : trim (trim s) = trim s := by
  rw [trim, trim, String.toList_ofList, trimBoth_trimBoth_of_imp fun _ => id]

/-- Of a blank text, and of no other, trimming leaves nothing. -/
theorem trim_eq_empty_iff {s : String} : trim s = "" ↔ isBlankText s = true := by
  rw [trim, String.ofList_eq_empty_iff, trimBoth_eq_nil_iff, isBlankText, List.all_eq_true]

/-- A text without the separator is one piece. -/
theorem piecesAt_of_not_mem (h : sep ∉ cs) : piecesAt sep cs = [cs] := by
  induction cs with
  | nil => rfl
  | cons c cs ih =>
      obtain ⟨hc, hcs⟩ := not_or.mp (List.mem_cons.not.mp h)
      rw [piecesAt, if_neg (Ne.symm hc), ih hcs]

/-- The first piece ends where the separator stands first. -/
theorem piecesAt_append_cons (h : sep ∉ cs) (ds : List Char) :
    piecesAt sep (cs ++ sep :: ds) = cs :: piecesAt sep ds := by
  induction cs with
  | nil => exact if_pos rfl
  | cons c cs ih =>
      obtain ⟨hc, hcs⟩ := not_or.mp (List.mem_cons.not.mp h)
      rw [List.cons_append, piecesAt, if_neg (Ne.symm hc), ih hcs]

/-- There is always a piece. -/
theorem piecesAt_ne_nil (sep : Char) (cs : List Char) : piecesAt sep cs ≠ [] := by
  cases cs with
  | nil => exact List.cons_ne_nil _ _
  | cons c cs =>
      unfold piecesAt
      split
      case isTrue => exact List.cons_ne_nil _ _
      case isFalse => split <;> exact List.cons_ne_nil _ _

/-- A text has two pieces exactly if the separator stands in it once. -/
theorem piecesAt_eq_pair_iff {as bs : List Char} :
    piecesAt sep cs = [as, bs] ↔ cs = as ++ sep :: bs ∧ sep ∉ as ∧ sep ∉ bs := by
  constructor
  · intro h
    by_cases hsep : sep ∈ cs
    · obtain ⟨before, after, rfl, hbefore⟩ := List.eq_append_cons_of_mem hsep
      rw [piecesAt_append_cons hbefore] at h
      obtain ⟨rfl, hafter⟩ := List.cons.inj h
      have hlast : sep ∉ after := by
        intro hmore
        obtain ⟨middle, rest, rfl, hmiddle⟩ := List.eq_append_cons_of_mem hmore
        rw [piecesAt_append_cons hmiddle] at hafter
        exact piecesAt_ne_nil sep rest (List.cons.inj hafter).2
      rw [piecesAt_of_not_mem hlast] at hafter
      obtain rfl := (List.cons.inj hafter).1
      exact ⟨rfl, hbefore, hlast⟩
    · rw [piecesAt_of_not_mem hsep] at h
      cases h
  · rintro ⟨rfl, has, hbs⟩
    rw [piecesAt_append_cons has, piecesAt_of_not_mem hbs]

end LabelScheduler.Text
