import LabelScheduler.Fault
import LabelScheduler.Proofs.Text.Numeral

/-!
# Reading the reference to a run

The reference to a run tells the run, since the name of a task does not hold the mark. Reading it trims the name,
though, so it leads back to the same run only if there are no blanks around the name; otherwise it leads to a run of
another task, or to none if the name is blank. Numerals of any length are written, but the longest are not read.

Besides the reference, many other texts are read as a run, with blanks around their parts and with other numerals. A run
that was read has a trimmed name and a number that is not too long, so its own reference stands for all these texts.
-/

namespace LabelScheduler

namespace RunReference

/-- The names of tasks are the texts that are not empty and hold no mark. -/
theorem isTaskName_iff {s : String} : isTaskName s = true ↔ s ≠ "" ∧ '#' ∉ s.toList := by
  rw [isTaskName, Bool.and_eq_true, Bool.not_eq_true', Bool.not_eq_true', Bool.eq_false_iff, Bool.eq_false_iff,
    Ne, String.isEmpty_iff, Ne, List.contains_iff_mem]

/-- The name of a task holds no mark. -/
theorem mark_not_mem (t : TaskName) : '#' ∉ t.text.toList := (isTaskName_iff.mp t.valid).2

/-- The characters of a reference. -/
theorem toList_id (r : RunReference) : r.id.toList = r.task.text.toList ++ '#' :: Nat.toDigits 10 r.number := by
  simp [id]

/-- A number in decimal holds no mark. -/
theorem mark_not_mem_toDigits (n : Nat) : '#' ∉ Nat.toDigits 10 n :=
  fun h => absurd (Text.isDigit_of_mem_toDigits h) (by decide)

/-- Runs of the same number of tasks of the same name are the same. -/
theorem ext_text {r r' : RunReference} (htask : r.task.text = r'.task.text) (hnumber : r.number = r'.number) :
    r = r' := by
  obtain ⟨⟨task, _⟩, number, _⟩ := r
  obtain ⟨⟨task', _⟩, number', _⟩ := r'
  obtain rfl : task = task' := htask
  obtain rfl : number = number' := hnumber
  rfl

/-- Two runs that are written alike are the same. -/
theorem id_injective : Function.Injective id := by
  intro r r' hid
  have hpieces (r : RunReference) :
      Text.piecesAt '#' r.id.toList = [r.task.text.toList, Nat.toDigits 10 r.number] := by
    rw [toList_id, Text.piecesAt_append_cons (mark_not_mem _), Text.piecesAt_of_not_mem (mark_not_mem_toDigits _)]
  have hsame : [r.task.text.toList, Nat.toDigits 10 r.number] = [r'.task.text.toList, Nat.toDigits 10 r'.number] := by
    rw [← hpieces r, hid, hpieces r']
  obtain ⟨htask, hdigits, -⟩ := by simpa only [List.cons.injEq] using hsame
  refine ext_text (String.toList_inj.mp htask) ?_
  rw [← Text.digitsValue_toDigits r.number, hdigits, Text.digitsValue_toDigits]

/-- The reference to a run is read as the run of this number of the trimmed task, if there is such a task. -/
theorem ofId_id (r : RunReference) : ofId r.id =
    if 10 ^ Text.numeralLimit ≤ r.number then .error (.numeral r.id (.tooLong (toString r.number).length))
    else (make (Text.trim r.task.text) r.number).mapError (.run r.id) := by
  have hdigits : ∀ c ∈ Nat.toDigits 10 r.number, Text.isBlank c = false :=
    fun c hc => Text.isBlank_of_isDigit (Text.isDigit_of_mem_toDigits hc)
  have hmark : '#' ∉ r.task.text.toList.dropWhile Text.isBlank :=
    fun h => mark_not_mem r.task ((List.dropWhile_suffix _).subset h)
  have hpieces : Text.piecesAt '#' (Text.trimBoth Text.isBlank r.id.toList) =
      [r.task.text.toList.dropWhile Text.isBlank, Nat.toDigits 10 r.number] := by
    rw [toList_id, Text.trimBoth_append_cons _ (by decide) hdigits, Text.piecesAt_append_cons hmark,
      Text.piecesAt_of_not_mem (mark_not_mem_toDigits _)]
  have hnumber : Text.trim (String.ofList (Nat.toDigits 10 r.number)) = toString r.number := by
    rw [Text.trim, String.toList_ofList, Text.trimBoth_eq_self hdigits, ← Text.toList_toString, String.ofList_toList]
  have htask : Text.trim (String.ofList (r.task.text.toList.dropWhile Text.isBlank)) = Text.trim r.task.text := by
    rw [Text.trim, String.toList_ofList, Text.trimBoth_dropWhile, Text.trim]
  rw [ofId, hpieces]
  simp only [hnumber, htask, Text.readNumeral_toString]
  by_cases hlong : 10 ^ Text.numeralLimit ≤ r.number
  · rw [if_pos hlong, if_pos hlong]
  · rw [if_neg hlong, if_neg hlong]

/-- A name and a number make a run if the name is that of a task and the number is positive. -/
theorem make_eq_ok_iff {name : String} {n : Int} {r : RunReference} :
    make name n = .ok r ↔ r.task.text = name ∧ (r.number : Int) = n := by
  constructor
  · intro h
    unfold make at h
    split at h
    case isTrue =>
      split at h
      case isTrue hn =>
        obtain rfl := Except.ok.inj h
        exact ⟨rfl, Int.toNat_of_nonneg hn.le⟩
      case isFalse => cases h
    case isFalse => cases h
  · rintro ⟨rfl, rfl⟩
    rw [make, dif_pos r.task.valid, dif_pos (Int.natCast_pos.mpr r.positive)]
    rfl

/-- A reference leads to the run of the same number of the trimmed task. -/
theorem ofId_id_eq_ok_iff {r r' : RunReference} : ofId r.id = .ok r' ↔
    r.number < 10 ^ Text.numeralLimit ∧ r'.task.text = Text.trim r.task.text ∧ r'.number = r.number := by
  rw [ofId_id]
  by_cases hlong : 10 ^ Text.numeralLimit ≤ r.number
  · rw [if_pos hlong]
    simp [Nat.not_lt.mpr hlong]
  · rw [if_neg hlong, ← Nat.cast_inj (R := Int), ← make_eq_ok_iff]
    cases make (Text.trim r.task.text) r.number <;> simp [Except.mapError, Nat.lt_of_not_le hlong]

/-- A reference leads back to its run exactly if there are no blanks around the name of the task, and the number can
be read. -/
theorem ofId_id_eq_self_iff {r : RunReference} : ofId r.id = .ok r ↔
    Text.trim r.task.text = r.task.text ∧ r.number < 10 ^ Text.numeralLimit := by
  rw [ofId_id_eq_ok_iff, and_comm, eq_comm (b := Text.trim _), and_iff_left rfl]

/-! ### Which texts are references -/

/-- Apart from blanks around it, the text is the two parts with the mark between them, and there is no other mark. -/
def Marked (s before after : String) : Prop :=
  Text.trim s = before ++ "#" ++ after ∧ '#' ∉ before.toList ∧ '#' ∉ after.toList

/-- The mark parts a text in two exactly if it stands in the text once. -/
theorem marked_iff {s before after : String} :
    Marked s before after ↔
      Text.piecesAt '#' (Text.trimBoth Text.isBlank s.toList) = [before.toList, after.toList] := by
  rw [Text.piecesAt_eq_pair_iff, Marked, ← String.toList_inj]
  simp [Text.trim]

/-- A text is read as a run if the part before its mark, trimmed, is the name of the task and the part behind it,
trimmed, is a numeral of the number. -/
theorem ofId_eq_ok_iff {s : String} {r : RunReference} :
    ofId s = .ok r ↔ ∃ before after, Marked s before after ∧ r.task.text = Text.trim before ∧
      Text.Numeral (Text.trim after).toList r.number := by
  have hread (after : String) (n : Int) :
      Text.readNumeral (Text.trim after) = .ok n ↔ Text.Numeral (Text.trim after).toList n := by
    rw [Text.readNumeral_eq_ok_iff, Text.trim, String.toList_ofList, Text.trimBoth_trimBoth_of_imp]
    exact fun c hc => (Bool.and_eq_true_iff.mp hc).1
  constructor
  · intro h
    unfold ofId at h
    split at h
    case h_1 before after hpieces =>
      split at h
      case h_1 => cases h
      case h_2 n hn =>
        cases hmake : make (Text.trim (String.ofList before)) n with
        | error f => rw [hmake] at h; cases h
        | ok r' =>
            rw [hmake] at h
            obtain rfl : r' = r := Except.ok.inj h
            obtain ⟨htask, rfl⟩ := make_eq_ok_iff.mp hmake
            refine ⟨String.ofList before, String.ofList after, marked_iff.mpr ?_, htask, (hread _ _).mp hn⟩
            simpa using hpieces
    case h_2 => cases h
  · rintro ⟨before, after, hmarked, htask, hnumeral⟩
    rw [ofId, marked_iff.mp hmarked]
    simp only [String.ofList_toList, (hread _ _).mpr hnumeral, make_eq_ok_iff.mpr ⟨htask, rfl⟩]
    rfl

/-- The number of a run that was read can be read again. -/
theorem number_lt_of_ofId {s : String} {r : RunReference} (h : ofId s = .ok r) : r.number < 10 ^ Text.numeralLimit := by
  obtain ⟨before, after, -, -, hnumeral⟩ := ofId_eq_ok_iff.mp h
  have hlt := hnumeral.natAbs_lt
  simpa using hlt

/-- The name of the task of a run that was read is trimmed. -/
theorem trim_task_of_ofId {s : String} {r : RunReference} (h : ofId s = .ok r) :
    Text.trim r.task.text = r.task.text := by
  obtain ⟨before, after, -, htask, -⟩ := ofId_eq_ok_iff.mp h
  rw [htask, Text.trim_trim]

/-- Every text is refused, with a fault in its value, or read as a run with a positive number and a trimmed name that
is not empty and has no mark; the reference to this run is then read as the same run again. A text is read exactly if,
apart from blanks around it, it has one mark, what stands before the mark is not blank, and what stands behind it is,
trimmed, a numeral of a positive number. No two runs have the same reference. -/
theorem ofId_decodes (s : String) :
    ((∃ f, ofId s = .error f ∧ (Fault.run f).kind = "ValueError") ∨
      ∃ r, ofId s = .ok r ∧ 1 ≤ r.number ∧ r.task.text ≠ "" ∧ '#' ∉ r.task.text.toList ∧
        Text.trim r.task.text = r.task.text ∧ ofId r.id = .ok r) ∧
    ((∃ r, ofId s = .ok r) ↔ ∃ before after, Marked s before after ∧ Text.isBlankText before = false ∧
      ∃ n, 1 ≤ n ∧ Text.Numeral (Text.trim after).toList n) ∧
    (∀ r, ofId s = .ok r ↔ ∃ before after, Marked s before after ∧ r.task.text = Text.trim before ∧
      Text.Numeral (Text.trim after).toList r.number) ∧
    Function.Injective id := by
  have hnamed (r : RunReference) : r.task.text ≠ "" := (isTaskName_iff.mp r.task.valid).1
  refine ⟨?_, ⟨?_, ?_⟩, fun r => ofId_eq_ok_iff, id_injective⟩
  · cases hread : ofId s with
    | error f => exact .inl ⟨f, rfl, rfl⟩
    | ok r =>
        have hself : ofId r.id = .ok r := ofId_id_eq_self_iff.mpr ⟨trim_task_of_ofId hread, number_lt_of_ofId hread⟩
        exact .inr ⟨r, rfl, r.positive, hnamed r, mark_not_mem r.task, trim_task_of_ofId hread, hself⟩
  · rintro ⟨r, hread⟩
    obtain ⟨before, after, hmarked, htask, hnumeral⟩ := ofId_eq_ok_iff.mp hread
    have hblank : Text.isBlankText before = false :=
      Bool.eq_false_iff.mpr fun hblank => hnamed r (htask.trans (Text.trim_eq_empty_iff.mpr hblank))
    exact ⟨before, after, hmarked, hblank, r.number, Int.ofNat_le.mpr r.positive, hnumeral⟩
  · rintro ⟨before, after, hmarked, hblank, n, hn, hnumeral⟩
    have hplain : '#' ∉ (Text.trim before).toList := by
      rw [Text.trim, String.toList_ofList]
      exact fun hmem => hmarked.2.1 (Text.trimBoth_subset _ _ hmem)
    have htask : isTaskName (Text.trim before) = true :=
      isTaskName_iff.mpr ⟨fun hempty => Bool.eq_false_iff.mp hblank (Text.trim_eq_empty_iff.mp hempty), hplain⟩
    have hnumber : (n.toNat : Int) = n := Int.toNat_of_nonneg (by omega)
    let r : RunReference := ⟨⟨_, htask⟩, n.toNat, by omega⟩
    exact ⟨r, ofId_eq_ok_iff.mpr ⟨before, after, hmarked, rfl, hnumber.symm ▸ hnumeral⟩⟩

end RunReference

end LabelScheduler
