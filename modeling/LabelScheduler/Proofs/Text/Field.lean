import LabelScheduler.Text.Blank
import Mathlib.Data.List.TakeWhile

/-!
# The fields of a text

The fields of a text are its maximal runs of characters that are not blank: each is bordered by blanks or by an end of
the text. A text is a blank or such a run with another text behind it, and of both kinds it is clear what the fields and
the runs are.
-/

namespace LabelScheduler.Text

variable {c : Char} {w v cs rest : List Char} {n s : String}

/-- A run of characters that are not blank and that can be made longer neither in front nor behind. -/
structure IsRun (w cs : List Char) : Prop where
  nonempty : w ≠ []
  plain : ∀ c ∈ w, isBlank c = false
  bordered : ∃ before behind, cs = before ++ (w ++ behind) ∧ (∀ c ∈ before.getLast?, isBlank c = true) ∧
    ∀ c ∈ behind.head?, isBlank c = true

/-- A field of a text: as many characters that are not blank as stand next to one another. -/
def IsField (n s : String) : Prop := IsRun n.toList s.toList

/-- Characters that are not blank do not begin with a blank. -/
theorem eq_nil_of_head? (hw : ∀ c ∈ w, isBlank c = false) (hhead : ∀ c ∈ (w ++ rest).head?, isBlank c = true) :
    w = [] := by
  cases w with
  | nil => rfl
  | cons c w => exact nomatch (hw c List.mem_cons_self).symm.trans (hhead c rfl)

/-- Characters that are not blank do not end with a blank. -/
theorem eq_nil_of_getLast? (hw : ∀ c ∈ w, isBlank c = false) (hlast : ∀ c ∈ w.getLast?, isBlank c = true) :
    w = [] := by
  by_contra hne
  have hc := List.getLast_mem hne
  exact nomatch (hw _ hc).symm.trans (hlast _ (List.getLast?_eq_some_getLast hne))

/-- A text that begins with no blank goes on without one up to its end or to the first blank. -/
theorem exists_append_of_not_blank (hc : isBlank c = false) (cs : List Char) :
    ∃ v rest, c :: cs = v ++ rest ∧ v ≠ [] ∧ (∀ d ∈ v, isBlank d = false) ∧ ∀ d ∈ rest.head?, isBlank d = true := by
  let word := (c :: cs).takeWhile (!isBlank ·)
  let rest := (c :: cs).dropWhile (!isBlank ·)
  refine ⟨word, rest, List.takeWhile_append_dropWhile.symm, by simp [word, hc], fun d hd => ?_, fun d hd => ?_⟩
  · simpa using List.mem_takeWhile_imp hd
  · have hstop := List.head?_dropWhile_not (!isBlank ·) (c :: cs)
    rw [hd] at hstop
    simpa using hstop

/-- A blank is in no field. -/
theorem fieldChars_cons (hc : isBlank c = true) (cs : List Char) : fieldChars (c :: cs) = fieldChars cs := by
  rw [fieldChars.eq_def]
  exact if_pos hc

/-- Characters that are not blank are the first field if a blank or the end comes behind them. -/
theorem fieldChars_append (hne : v ≠ []) (hv : ∀ c ∈ v, isBlank c = false)
    (hrest : ∀ c ∈ rest.head?, isBlank c = true) : fieldChars (v ++ rest) = v :: fieldChars rest := by
  induction v with
  | nil => exact absurd rfl hne
  | cons c v ih =>
      obtain ⟨hc, hv⟩ := List.forall_mem_cons.mp hv
      rw [List.cons_append, fieldChars.eq_def]
      cases v with
      | nil => cases rest with
        | nil => simp [hc, fieldChars]
        | cons d ds => simp [hc, hrest d rfl]
      | cons d v =>
          have hlonger := ih (List.cons_ne_nil d v) hv
          rw [List.cons_append] at hlonger
          simp [hc, (List.forall_mem_cons.mp hv).1, hlonger]

/-- A blank is in no run. -/
theorem isRun_cons (hc : isBlank c = true) : IsRun w (c :: cs) ↔ IsRun w cs := by
  constructor
  · rintro ⟨hne, hw, before, behind, hcs, hbefore, hbehind⟩
    cases before with
    | nil =>
        have hhead : ∀ d ∈ (w ++ behind).head?, isBlank d = true := by
          rw [← List.nil_append (w ++ behind), ← hcs]
          simpa using hc
        exact absurd (eq_nil_of_head? hw hhead) hne
    | cons d before =>
        obtain ⟨rfl, htail⟩ := List.cons.inj hcs
        refine ⟨hne, hw, before, behind, htail, fun e he => hbefore e ?_, hbehind⟩
        rw [List.getLast?_cons, he]
        rfl
  · rintro ⟨hne, hw, before, behind, rfl, hbefore, hbehind⟩
    refine ⟨hne, hw, c :: before, behind, rfl, fun e he => ?_, hbehind⟩
    cases hlast : before.getLast? with
    | none =>
        rw [List.getLast?_cons, hlast] at he
        cases he
        exact hc
    | some d =>
        rw [List.getLast?_cons, hlast] at he
        cases he
        exact hbefore _ hlast

/-- The runs are those of two texts if the first has no blanks and a blank, or the end, begins the second. -/
theorem isRun_append (hne : v ≠ []) (hv : ∀ c ∈ v, isBlank c = false) (hrest : ∀ c ∈ rest.head?, isBlank c = true) :
    IsRun w (v ++ rest) ↔ w = v ∨ IsRun w rest := by
  constructor
  · rintro ⟨hwne, hw, before, behind, hcs, hbefore, hbehind⟩
    rcases List.append_eq_append_iff.mp hcs with ⟨b, rfl, hrest'⟩ | ⟨a, rfl, htail⟩
    · -- the run begins behind the first text
      refine .inr ⟨hwne, hw, b, behind, hrest', fun e he => hbefore e ?_, hbehind⟩
      rw [List.getLast?_append, he]
      rfl
    · -- it begins in the first text, so at its beginning, and goes as far as that text
      obtain rfl : before = [] :=
        eq_nil_of_getLast? (fun c hc => hv c (List.mem_append_left _ hc)) hbefore
      rw [List.nil_append] at hv
      refine .inl ?_
      rcases List.append_eq_append_iff.mp htail with ⟨x, rfl, rfl⟩ | ⟨x, rfl, rfl⟩
      · obtain rfl : x = [] := eq_nil_of_head? (fun c hc => hv c (List.mem_append_right _ hc)) hbehind
        exact (List.append_nil w).symm
      · obtain rfl : x = [] := eq_nil_of_head? (fun c hc => hw c (List.mem_append_right _ hc)) hrest
        exact List.append_nil a
  · rintro (rfl | ⟨hwne, hw, before, behind, rfl, hbefore, hbehind⟩)
    · exact ⟨hne, hv, [], rest, rfl, nofun, hrest⟩
    · refine ⟨hwne, hw, v ++ before, behind, (List.append_assoc _ _ _).symm, fun e he => ?_, hbehind⟩
      rw [List.getLast?_append] at he
      cases hlast : before.getLast? with
      | none =>
          obtain rfl := List.getLast?_eq_none_iff.mp hlast
          exact absurd (eq_nil_of_head? hw hrest) hwne
      | some d =>
          rw [hlast] at he
          cases he
          exact hbefore _ hlast

/-- The fields of a text are its runs. -/
theorem mem_fieldChars : w ∈ fieldChars cs ↔ IsRun w cs := by
  induction hlength : cs.length using Nat.strong_induction_on generalizing cs with
  | _ length ih =>
      cases cs with
      | nil =>
          refine ⟨nofun, fun hrun => ?_⟩
          obtain ⟨before, behind, hcs, -⟩ := hrun.bordered
          exact absurd (List.append_eq_nil_iff.mp (List.append_eq_nil_iff.mp hcs.symm).2).1 hrun.nonempty
      | cons c cs =>
          cases hc : isBlank c with
          | true =>
              rw [fieldChars_cons hc, isRun_cons hc]
              exact ih cs.length (hlength ▸ Nat.lt_succ_self _) rfl
          | false =>
              obtain ⟨v, rest, hcs, hne, hv, hrest⟩ := exists_append_of_not_blank hc cs
              have hpos := List.length_pos_iff.mpr hne
              rw [hcs, List.length_append] at hlength
              rw [hcs, fieldChars_append hne hv hrest, isRun_append hne hv hrest, List.mem_cons]
              exact or_congr_right (ih rest.length (by omega) rfl)

/-- The fields of a text, as texts. -/
theorem mem_fields : n ∈ fields s ↔ IsField n s := by
  rw [IsField, ← mem_fieldChars, fields, List.mem_map]
  constructor
  · rintro ⟨w, hw, rfl⟩
    rwa [String.toList_ofList]
  · exact fun hn => ⟨_, hn, String.ofList_toList⟩

end LabelScheduler.Text
