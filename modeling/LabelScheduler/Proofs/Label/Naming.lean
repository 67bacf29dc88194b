import LabelScheduler.Proofs.Label.RoundTrip
import LabelScheduler.Proofs.Registry

/-!
# Which atoms can be named in an expression

Any text without blanks can be the name of an atom, but only letters, digits, dots, dashes and low lines make an atom
of an expression. So the atom of a name can be named in an expression exactly if the name has no other characters, and
then it is read from its own name, with any separators around it.
-/

namespace LabelScheduler

section Texts

variable {s t : String} {e : Label}

/-- A name that can be written is read as its atom, also with separators around it, and the atom is met. -/
theorem readLabel_of_spaced (hname : isAtomName t.toList = true) (hs : Lexeme.Spaced [.ofName t] s.toList) :
    readLabel s = ⟨[t], .ok (.atom t false)⟩ := by
  have hwritten : (Lexeme.ofName t).Written := .name hname
  have hblank : Text.isBlankText s = false := by
    obtain ⟨c, hc, hnot⟩ := hwritten.exists_not_blank
    have hfilter := hs.filter (List.forall_mem_singleton.mpr hwritten)
    have hmem : c ∈ s.toList.filter (!isSeparator ·) := by
      rw [hfilter, List.flatMap_singleton]
      exact hc
    refine Bool.eq_false_iff.mpr fun hall => ?_
    rw [List.all_eq_true.mp hall c (List.mem_filter.mp hmem).1] at hnot
    cases hnot
  have hlegible : Lexeme.Legible [.ofName t] := .cons hwritten (fun _ => nofun) .nil
  obtain ⟨htokens, hillegal⟩ := hlegible.scanFrom_spaced hs 0
  obtain ⟨token, hscan, hlexeme⟩ := List.map_eq_singleton_iff.mp htokens
  obtain ⟨hkind, hchars⟩ := Lexeme.mk.inj hlexeme
  have htext : token.text = t := by rw [Token.text, hchars, String.ofList_toList]
  simp only [readLabel, hblank, Bool.false_eq_true, if_false, scan]
  rw [hscan, hillegal]
  simp [readFrom, Cursor.step, Cursor.initial, Cursor.operandRead, Cursor.negate, Cursor.finish, Cursor.closeAll,
    settles, hkind, htext]

/-- In a text that is read as an expression, there are no blanks but separators. -/
theorem isSeparator_of_parseLabel (h : parseLabel s = .ok e) {c : Char} (hc : c ∈ s.toList)
    (hblank : Text.isBlank c = true) : isSeparator c = true := by
  obtain ⟨-, hillegal, -⟩ := parseLabel_eq_ok_iff.mp h
  exact (scanFrom_spaced hillegal).isSeparator_of_isBlank (scanFrom_written 0 s.toList).lexemes hc hblank

/-- A text whose blanks are separators is what is left of it when it is trimmed, with separators around it. -/
theorem spaced_of_trim (htrim : Text.trim s = t)
    (hblank : ∀ c ∈ s.toList, Text.isBlank c = true → isSeparator c = true) :
    Lexeme.Spaced [.ofName t] s.toList := by
  let rest := s.toList.dropWhile Text.isBlank
  have hrest : rest ⊆ s.toList := (List.dropWhile_sublist _).subset
  have hchars : t.toList = rest.rdropWhile Text.isBlank := by
    rw [← htrim, Text.trim, String.toList_ofList]
    rfl
  have hend : Lexeme.Spaced [] (rest.rtakeWhile Text.isBlank) := by
    rw [← List.append_nil (rest.rtakeWhile Text.isBlank)]
    refine .separators (fun c hc => hblank c (hrest ?_) (List.mem_rtakeWhile_imp hc)) .nil
    exact (List.rtakeWhile_suffix _ _).subset hc
  have hbehind : Lexeme.Spaced [.ofName t] rest := by
    have hwhole : (Lexeme.ofName t).chars ++ rest.rtakeWhile Text.isBlank = rest := by
      rw [Lexeme.ofName, hchars, List.rdropWhile_append_rtakeWhile]
    exact hwhole ▸ .lexeme (.ofName t) hend
  rw [← List.takeWhile_append_dropWhile (p := Text.isBlank) (l := s.toList)]
  refine hbehind.separators fun c hc => hblank c ?_ (List.mem_takeWhile_imp hc)
  exact (List.takeWhile_sublist _).subset hc

end Texts

namespace Registry

variable {r r' : Registry} {n t s : String} {place : Nat}

/-- The atom of a name that is accepted is in the registry, at its place. -/
theorem intern_eq_ok (h : r.intern n = (r', .ok (place, t))) :
    checkName n = .ok t ∧ t ∈ r'.names ∧ r'.find? t = some place := by
  unfold intern at h
  cases hname : checkName n with
  | error f =>
      rw [hname] at h
      cases (Prod.mk.inj h).2
  | ok t' =>
      rw [hname] at h
      obtain ⟨rfl, hgiven⟩ := Prod.mk.inj h
      obtain ⟨rfl, rfl⟩ := Prod.mk.inj (Except.ok.inj hgiven)
      have hmem : t' ∈ (r.add t').names := mem_add r t'
      refine ⟨rfl, hmem, ?_⟩
      rw [find?, List.idxOf_eq_getD_idxOf?]
      cases hfind : (r.add t').names.idxOf? t' with
      | none => exact absurd hmem (List.idxOf?_eq_none_iff.mp hfind)
      | some i => rfl

/-- The atom of a name is read from the name, with separators around it, if the name can be written. -/
theorem parse_of_mem (hmem : t ∈ r.names) (hname : isAtomName t.toList = true)
    (hs : Lexeme.Spaced [.ofName t] s.toList) : r.parse s = (r, .ok (.atom t false)) := by
  have hadd : r.addAll [t] = r := if_pos hmem
  rw [parse, readLabel_of_spaced hname hs, hadd]

/-- How expressions name an atom of the registry. -/
structure Naming (r : Registry) (t : String) : Prop where
  /-- The atom is written as its name. -/
  written : (Label.atom t false).name = t
  /-- If the name can be written, it is read as this atom, and no atom is made. -/
  read : isAtomName t.toList = true → r.parse t = (r, .ok (.atom t false))
  /-- If it cannot, no text at all is read as an expression with this atom. -/
  unread : isAtomName t.toList = false → ∀ text e, (r.parse text).2 = .ok e → t ∉ e.atomNames

/-- So expressions name the atoms that there are. -/
theorem naming_of_mem (hmem : t ∈ r.names) : r.Naming t where
  written := by simp [Label.name, Label.lexemes, Label.lexemesThen, parenthesizedIf, Lexeme.ofName]
  read hname := parse_of_mem hmem hname (by simpa [Lexeme.ofName] using Lexeme.Spaced.flatMap [.ofName t])
  unread hnot text e h ht := by
    rw [(parseLabel_regular h).named t ht] at hnot
    cases hnot

end Registry

end LabelScheduler
