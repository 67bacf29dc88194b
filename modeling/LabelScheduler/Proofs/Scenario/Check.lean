import LabelScheduler.Proofs.Scheduler.Refusal

/-!
# What checks find

A label is checked by other means than those by which it is submitted and matched. Still, the check finds an error
exactly in the texts that a submission cannot read, and otherwise it looks for the nodes that satisfy the label that a
submission reads. A blank text stands for no label; its check does not name the nodes, as any of them may run the job.
-/

namespace LabelScheduler

/-- The label that a submission with this text asks for, or the fault in the text. -/
def labelOf (text : String) : Except Fault (Option Label) :=
  if Text.isBlankText text then .ok none else ((parseLabel text).map some).mapError (.label ∘ .parse)

/-- Texts that cannot be read are malformed. -/
theorem labelOf_error {text : String} {f : Fault} (h : labelOf text = .error f) : ∃ g, f = .label (.parse g) := by
  unfold labelOf at h
  split at h
  case isTrue => cases h
  case isFalse =>
    cases hparse : parseLabel text with
    | ok e => rw [hparse] at h; cases h
    | error g => rw [hparse] at h; cases h; exact ⟨g, rfl⟩

/-- A text that can be read is blank and asks for no label, or it is a label. -/
theorem labelOf_ok {text : String} {label : Option Label} (h : labelOf text = .ok label) :
    (Text.isBlankText text = true ∧ label = none) ∨
      Text.isBlankText text = false ∧ ∃ e, parseLabel text = .ok e ∧ label = some e := by
  unfold labelOf at h
  split at h
  case isTrue hblank => exact .inl ⟨hblank, (Except.ok.inj h).symm⟩
  case isFalse hblank =>
    cases hparse : parseLabel text with
    | ok e => rw [hparse] at h; exact .inr ⟨Bool.eq_false_iff.mpr hblank, e, rfl, (Except.ok.inj h).symm⟩
    | error g => rw [hparse] at h; cases h

namespace Scheduler

variable {s t : Scheduler} {text : String}

/-- Submissions read texts like this, whatever atoms there are. -/
theorem readLabel_text (s : Scheduler) (text : String) : (s.readLabel (.plain (.text text))).2 = labelOf text := by
  have hparse : (s.parse text).2 = (parseLabel text).mapError (.label ∘ .parse) := rfl
  simp only [readLabel, labelOf]
  split
  case isTrue => rfl
  case isFalse =>
    simp only [hparse]
    cases parseLabel text <;> rfl

/-- How the outcome of a check agrees with the label that a submission reads, or fails to read. -/
inductive Foretells (s : Scheduler) : Except Fault (Option Label) → LabelCheck → Prop where
  | malformed (g : ParseFault) (message : String) : Foretells s (.error (.label (.parse g))) ⟨.error, message⟩
  | blank : Foretells s (.ok none) ⟨.ok, "Any node may run this job"⟩
  | unmet (e : Label) (message : String) (h : s.pool.matching (some e) = []) :
      Foretells s (.ok (some e)) ⟨.warning, message⟩
  | met (e : Label) (h : s.pool.matching (some e) ≠ []) :
      Foretells s (.ok (some e)) ⟨.ok, "Label '" ++ e.name ++ "' is serviced by " ++
        toString (s.pool.matching (some e)).length ++ " node(s): " ++
        ", ".intercalate ((s.pool.matching (some e)).map Node.name)⟩

/-- A check reads the label as a submission does, and looks for nodes as matching does. -/
theorem checkLabel_foretells (s : Scheduler) (text : String) :
    s.Foretells (s.readLabel (.plain (.text text))).2 (s.checkLabel text).2 := by
  rw [readLabel_text]
  unfold checkLabel labelOf
  split
  case isTrue => exact .blank
  case isFalse =>
    have hparse : (s.parse text).2 = (parseLabel text).mapError (.label ∘ .parse) := rfl
    have hnodes : (s.parse text).1.pool.nodes = s.pool.nodes :=
      (Unchanged.read s _ (Registry.below_parseLiteral _ (.text text))).nodes
    generalize s.parse text = given at hparse hnodes ⊢
    obtain ⟨s', result⟩ := given
    obtain rfl : result = (parseLabel text).mapError (.label ∘ .parse) := hparse
    cases parseLabel text with
    | error g => exact .malformed g _
    | ok e =>
        have hmatching : s'.pool.matching (some e) = s.pool.matching (some e) := congrArg (List.filter _) hnodes
        cases hfound : s.pool.matching (some e) with
        | nil =>
            rw [hfound] at hmatching
            simp only [Except.mapError, hmatching]
            exact .unmet e _ hfound
        | cons n ns =>
            have hmet := Foretells.met e (s := s) (by rw [hfound]; nofun)
            rw [hfound] at hmatching hmet
            simp only [Except.mapError, hmatching]
            exact hmet

namespace Foretells

variable {result : Except Fault (Option Label)} {c : LabelCheck}

/-- A check finds an error exactly where no label can be read. -/
theorem error_iff (h : s.Foretells result c) : c.kind = .error ↔ ∃ g, result = .error (.label (.parse g)) := by
  cases h <;> simp

/-- Where a check finds no error a label can be read. -/
theorem read (h : s.Foretells result c) (hkind : c.kind ≠ .error) : ∃ label, result = .ok label := by
  cases h with
  | malformed => exact absurd rfl hkind
  | blank => exact ⟨none, rfl⟩
  | unmet e | met e => exact ⟨some e, rfl⟩

/-- Where there are nodes, a check approves of a text exactly if some of them satisfies its label. -/
theorem ok_iff (h : s.Foretells result c) (hnodes : s.pool.nodes ≠ []) :
    c.kind = .ok ↔ ∃ label, result = .ok label ∧ ∃ n ∈ s.pool.nodes, n.meets label = true := by
  cases h with
  | malformed => simp
  | blank =>
      obtain ⟨n, hn⟩ := List.exists_mem_of_ne_nil _ hnodes
      simpa using ⟨n, hn, rfl⟩
  | unmet e message hnone => simpa [Pool.matching] using hnone
  | met e hsome => simpa [Pool.matching] using hsome

/-- Where there are nodes, a check warns exactly if none of them satisfies the label of the text. -/
theorem warning_iff (h : s.Foretells result c) (hnodes : s.pool.nodes ≠ []) :
    c.kind = .warning ↔ ∃ label, result = .ok label ∧ ∀ n ∈ s.pool.nodes, n.meets label = false := by
  cases h with
  | malformed => simp
  | blank =>
      obtain ⟨n, hn⟩ := List.exists_mem_of_ne_nil _ hnodes
      simpa using ⟨n, hn, rfl⟩
  | unmet e message hnone => simpa [Pool.matching] using hnone
  | met e hsome => simpa [Pool.matching] using hsome

/-- A check that approves of a label lists the nodes that satisfy it. -/
theorem listed {e : Label} (h : s.Foretells (.ok (some e)) c) (hok : c.kind = .ok) :
    c.message = "Label '" ++ e.name ++ "' is serviced by " ++
      toString (s.pool.nodes.filter (·.meets (some e))).length ++ " node(s): " ++
      ", ".intercalate ((s.pool.nodes.filter (·.meets (some e))).map Node.name) := by
  cases h with
  | unmet => cases hok
  | met => rfl

end Foretells

/-- Whether a check finds an error, and whether it finds a node, depends on the text and on the nodes alone. -/
theorem kind_checkLabel_congr (hnodes : t.pool.nodes = s.pool.nodes) (text : String) :
    (t.checkLabel text).2.kind = (s.checkLabel text).2.kind := by
  have hmatching (e : Label) : t.pool.matching (some e) = s.pool.matching (some e) := congrArg (List.filter _) hnodes
  have hs := checkLabel_foretells s text
  have ht := checkLabel_foretells t text
  rw [readLabel_text] at hs ht
  generalize (s.checkLabel text).2 = c at hs ⊢
  generalize (t.checkLabel text).2 = c' at ht ⊢
  generalize labelOf text = r at hs ht
  cases hs with
  | malformed g message => cases ht; rfl
  | blank => cases ht; rfl
  | unmet e message hnone =>
      cases ht with
      | unmet => rfl
      | met _ hsome => exact absurd ((hmatching e).trans hnone) hsome
  | met e hsome =>
      cases ht with
      | unmet _ _ hnone => exact absurd ((hmatching e).symm.trans hnone) hsome
      | met => rfl

/-- A check changes nothing; atoms may be made. -/
theorem checkLabel_unchanged (s : Scheduler) (text : String) :
    Milds s (s.checkLabel text).1 ∧ s.Unchanged (s.checkLabel text).1 := by
  have hmilds : Milds s (s.parse text).1 := .head (.note (.logAll _ _)) (.single (.read _))
  have hread : s.Unchanged (s.parse text).1 := .read s _ (Registry.below_parseLiteral _ (.text text))
  unfold checkLabel
  split
  case isTrue => exact ⟨.refl, .refl s⟩
  case isFalse =>
    generalize s.parse text = given at hmilds hread ⊢
    obtain ⟨s', f | e⟩ := given
    · exact ⟨hmilds.tail (.note (.log _ _)), hread.trans (.logAll s' [_])⟩
    · simp only
      split
      case h_1 => exact ⟨hmilds, hread⟩
      case h_2 => exact ⟨hmilds.tail (.note (.log _ _)), hread.trans (.logAll s' [_])⟩

/-- Checking jobs changes nothing, and it says of each label whether it is malformed as a check of its own would. -/
theorem checkAll_spec (jobs : List JobSpec) (s : Scheduler) :
    Milds s (JobSpec.checkAll jobs s).1 ∧ s.Unchanged (JobSpec.checkAll jobs s).1 ∧
      (JobSpec.checkAll jobs s).2 = jobs.all fun j => (s.checkLabel j.label).2.accepted := by
  induction jobs generalizing s with
  | nil => exact ⟨.refl, .refl s, rfl⟩
  | cons j jobs ih =>
      obtain ⟨hmilds, hunchanged⟩ := checkLabel_unchanged s j.label
      have hlogged := hunchanged.trans (.logAll _ [j.checkEvent (s.checkLabel j.label).2])
      obtain ⟨hrest, hrest', hall⟩ := ih ((s.checkLabel j.label).1.log (j.checkEvent (s.checkLabel j.label).2))
      refine ⟨(hmilds.tail (.note (.log _ _))).trans hrest, hlogged.trans hrest', ?_⟩
      have hsame : (fun i : JobSpec => (((s.checkLabel j.label).1.log
          (j.checkEvent (s.checkLabel j.label).2)).checkLabel i.label).2.accepted) =
          fun i => (s.checkLabel i.label).2.accepted := by
        funext i
        exact congrArg (· != .error) (kind_checkLabel_congr hlogged.nodes i.label)
      rw [hsame] at hall
      exact congrArg ((s.checkLabel j.label).2.accepted && ·) hall

/-- A check accepts the texts that a submission can read. -/
theorem accepted_iff (s : Scheduler) (text : String) :
    (s.checkLabel text).2.accepted = true ↔ ∃ label, labelOf text = .ok label := by
  have hforetells := checkLabel_foretells s text
  rw [readLabel_text] at hforetells
  simp only [LabelCheck.accepted, bne_iff_ne]
  refine ⟨hforetells.read, ?_⟩
  rintro ⟨label, hlabel⟩ herror
  obtain ⟨g, hmalformed⟩ := hforetells.error_iff.mp herror
  rw [hlabel] at hmalformed
  cases hmalformed

/-- How the check of a text agrees with the submissions of it. -/
structure Predicted (s : Scheduler) (text : String) : Prop where
  /-- If the check finds an error, every submission is refused at once, as its label cannot be read. -/
  refused : (s.checkLabel text).2.kind = .error → ∃ g, ∀ judge q task blockers, ∃ t,
    s.submit judge q (.plain (.text text)) task blockers = .done t (.error (.label (.parse g)))
  /-- If it finds none, no submission fails in this way, unless a party does. -/
  accepted : (s.checkLabel text).2.kind ≠ .error → ∀ judge q task blockers xs t f,
    (s.submit judge q (.plain (.text text)) task blockers).Course xs t (.error f) → f.kind = "ParseError" →
      Foreign judge xs f
  /-- The check approves of the text exactly if some node satisfies the label that submissions read. -/
  ok_iff : (s.checkLabel text).2.kind = .ok ↔ ∃ label, (s.readLabel (.plain (.text text))).2 = .ok label ∧
    ∃ n ∈ s.pool.nodes, n.meets label = true
  /-- It warns exactly if no node satisfies that label. -/
  warning_iff : (s.checkLabel text).2.kind = .warning ↔ ∃ label, (s.readLabel (.plain (.text text))).2 = .ok label ∧
    ∀ n ∈ s.pool.nodes, n.meets label = false
  /-- If it approves of a text that is not blank, it lists the nodes that satisfy the label, in order. -/
  listed : ∀ e, (s.readLabel (.plain (.text text))).2 = .ok (some e) → (s.checkLabel text).2.kind = .ok →
    (s.checkLabel text).2.message = "Label '" ++ e.name ++ "' is serviced by " ++
      toString (s.pool.nodes.filter (·.meets (some e))).length ++ " node(s): " ++
      ", ".intercalate ((s.pool.nodes.filter (·.meets (some e))).map Node.name)
  /-- It approves of a blank text without listing nodes. -/
  blank : Text.isBlankText text = true → (s.checkLabel text).2 = ⟨.ok, "Any node may run this job"⟩

/-- Checks agree with submissions where there are nodes. -/
theorem predicted (hs : s.WellFormed) (hnodes : s.pool.nodes ≠ []) (text : String) : s.Predicted text where
  refused herror := by
    obtain ⟨g, hread⟩ := (checkLabel_foretells s text).error_iff.mp herror
    refine ⟨g, fun judge q task blockers => ?_⟩
    have habides := submit_abides hs judge q (.plain (.text text)) task blockers
    simp only [Request.refusal, hread] at habides
    obtain ⟨t, hdone, -⟩ := habides
    exact ⟨t, hdone⟩
  accepted hkind judge q task blockers xs t f hcourse hparse := by
    obtain ⟨label, hread⟩ := (checkLabel_foretells s text).read hkind
    have habides := submit_abides hs judge q (.plain (.text text)) task blockers
    simp only [Request.refusal, hread] at habides
    split at habides
    case isTrue =>
      obtain ⟨u, hdone, -⟩ := habides
      rw [hdone] at hcourse
      cases hcourse
      rw [Fault.kind] at hparse
      exact absurd hparse (by decide)
    case isFalse => exact habides xs t f hcourse
  ok_iff := (checkLabel_foretells s text).ok_iff hnodes
  warning_iff := (checkLabel_foretells s text).warning_iff hnodes
  listed e hread hok := by
    have hforetells := checkLabel_foretells s text
    rw [hread] at hforetells
    exact hforetells.listed hok
  blank hblank := by simp only [checkLabel, hblank, if_true]

end Scheduler

end LabelScheduler
