import LabelScheduler.Scenario.File
import Mathlib.Data.List.Basic

/-!
# What scenario files hold

A file can be used if it is there, its bytes are text, none of its cells is too long and it has the columns. What it
then holds is one spec for each record. Reading succeeds exactly for such files whose specs are in order: nodes must
have names, and each a name of its own; jobs must have tasks without the mark and come after nothing or after runs.
Apart from a path that cannot be looked up at all, reading reports every other file as not in order.
-/

namespace LabelScheduler

/-- The node that a record stands for. -/
def NodeSpec.ofRow (r : Row) : NodeSpec := ⟨r.text "name", r.text "labels"⟩

/-- The job that a record stands for. -/
def JobSpec.ofRow (r : Row) : JobSpec := ⟨r.text "task", r.text "label", r.text? "upstream", r.text? "after"⟩

/-- The task has no mark, and what the job comes after is nothing or a run. -/
structure JobSpec.Readable (j : JobSpec) : Prop where
  task : '#' ∉ j.task.toList
  after : ∀ id, j.after = some id → ∃ r, RunReference.ofId id = .ok r

namespace File

/-- The file can be used, and its records stand for these specs. -/
inductive Holds {α : Type} (columns : List String) (ofRow : Row → α) : File → List α → Prop where
  | sheet {content : List UInt8} {text : List Char} (htext : Text.Utf8.decode content = (text, none))
      (hwhole : (Sheet.read text false).stop ≠ some .tooLong)
      (hcolumns : (Sheet.read text false).lacking columns = []) :
      Holds columns ofRow (.bytes content) ((Sheet.read text false).records.map ofRow)

/-- The file holds one list of specs at the most. -/
theorem Holds.unique {α : Type} {columns : List String} {ofRow : Row → α} {file : File} {as bs : List α}
    (h : file.Holds columns ofRow as) (h' : file.Holds columns ofRow bs) : as = bs := by
  obtain ⟨htext, -, -⟩ := h
  obtain ⟨htext', -, -⟩ := h'
  obtain ⟨rfl, -⟩ := Prod.mk.inj (htext.symm.trans htext')
  rfl

/-- The file holds these nodes, all of which have names, and no two the same. -/
structure HoldsNodes (file : File) (nodes : List NodeSpec) : Prop where
  holds : file.Holds FileReading.nodeColumns NodeSpec.ofRow nodes
  named : ∀ n ∈ nodes, n.name ≠ ""
  distinct : (nodes.map NodeSpec.name).Nodup

/-- The file holds these jobs, all of which have tasks and are in order. -/
structure HoldsJobs (file : File) (jobs : List JobSpec) : Prop where
  holds : file.Holds FileReading.jobColumns JobSpec.ofRow jobs
  named : ∀ j ∈ jobs, j.task ≠ ""
  readable : ∀ j ∈ jobs, j.Readable

end File

namespace FileReading

variable {α : Type} {spec : List α → Row → Except RowFault α} {ofRow : Row → α} {Alone : α → Prop}
  {Apart : α → α → Prop} {as : List α} {file : File} {path : String}

section

variable (hspec : ∀ before r a, spec before r = .ok a ↔ a = ofRow r ∧ Alone a ∧ ∀ b ∈ before, Apart b a)

include hspec

/-- Reading records succeeds if nothing ended the sheet early and every spec is in order by itself and beside those
before it. -/
theorem ofRows_ok_iff {last : Option FileFault} {number : Nat} {before : List α} {rows : List Row} :
    (ofRows spec last number before rows).result = .ok as ↔
      last = none ∧ as = before.reverse ++ rows.map ofRow ∧
        (∀ a ∈ rows.map ofRow, Alone a ∧ ∀ b ∈ before, Apart b a) ∧ (rows.map ofRow).Pairwise Apart := by
  induction rows generalizing number before with
  | nil => cases last <;> simp [ofRows, eq_comm]
  | cons r rows ih =>
      rw [ofRows]
      cases hr : spec before r with
      | error f =>
          have hrefused : ¬ (Alone (ofRow r) ∧ ∀ b ∈ before, Apart b (ofRow r)) := fun h =>
            nomatch hr.symm.trans ((hspec before r _).mpr ⟨rfl, h⟩)
          simp [hrefused]
      | ok a =>
          obtain ⟨rfl, halone, hbefore⟩ := (hspec before r a).mp hr
          simp only [ih, List.map_cons, List.forall_mem_cons, List.pairwise_cons, List.reverse_cons, List.append_assoc,
            List.singleton_append]
          constructor
          · rintro ⟨hlast, has, hrest, hpairwise⟩
            exact ⟨hlast, has, ⟨⟨halone, hbefore⟩, fun b hb => ⟨(hrest b hb).1, (hrest b hb).2.2⟩⟩,
              fun b hb => (hrest b hb).2.1, hpairwise⟩
          · rintro ⟨hlast, has, ⟨-, hrest⟩, hfirst, hpairwise⟩
            exact ⟨hlast, has, fun b hb => ⟨(hrest b hb).1, hfirst b hb, (hrest b hb).2⟩, hpairwise⟩

/-- Reading a text succeeds if no byte is at fault, no cell is too long, no column is lacking and every spec is in
order by itself and beside those before it. -/
theorem ofText_ok_iff {columns : List String} {text : List Char} {fault : Option Text.Utf8.Fault} :
    (ofText spec columns text fault).result = .ok as ↔
      (fault = none ∧ (Sheet.read text false).stop ≠ some .tooLong ∧ (Sheet.read text false).lacking columns = []) ∧
        as = (Sheet.read text false).records.map ofRow ∧ (∀ a ∈ as, Alone a) ∧ as.Pairwise Apart := by
  have hread {last : Option FileFault} {rows : List Row} : (ofRows spec last 2 [] rows).result = .ok as ↔
      last = none ∧ as = rows.map ofRow ∧ (∀ a ∈ as, Alone a) ∧ as.Pairwise Apart := by
    rw [ofRows_ok_iff hspec]
    constructor
    · rintro ⟨hlast, rfl, halone, hpairwise⟩
      exact ⟨hlast, rfl, fun a ha => (halone a ha).1, hpairwise⟩
    · rintro ⟨hlast, rfl, halone, hpairwise⟩
      exact ⟨hlast, rfl, fun a ha => ⟨halone a ha, nofun⟩, hpairwise⟩
  unfold ofText
  extract_lets sheet last
  have hlast : last = none ↔ fault = none ∧ sheet.stop ≠ some .tooLong := by
    unfold last
    split <;> simp_all
  constructor
  · intro h
    split at h
    case h_1 => cases h
    case h_2 =>
      split at h
      case h_1 hcolumns =>
        obtain ⟨hnone, hspecs⟩ := hread.mp h
        obtain ⟨rfl, hwhole⟩ := hlast.mp hnone
        exact ⟨⟨rfl, hwhole, hcolumns⟩, hspecs⟩
      case h_2 => cases h
  · rintro ⟨⟨rfl, hwhole, hcolumns⟩, hspecs⟩
    have hnone : last = none := hlast.mpr ⟨rfl, hwhole⟩
    split
    case h_1 hstopped => cases hnone.symm.trans hstopped
    case h_2 =>
      rw [show sheet.lacking columns = [] from hcolumns]
      exact hread.mpr ⟨hnone, hspecs⟩

/-- Reading a file succeeds if it can be used and every spec is in order by itself and beside those before it. -/
theorem ofFile_ok_iff {columns : List String} :
    (ofFile spec columns path file).result = .ok as ↔
      file.Holds columns ofRow as ∧ (∀ a ∈ as, Alone a) ∧ as.Pairwise Apart := by
  cases file with
  | bytes content =>
      simp only [ofFile, ofText_ok_iff hspec]
      constructor
      · rintro ⟨⟨hfault, hwhole, hcolumns⟩, rfl, hinOrder⟩
        exact ⟨.sheet (Prod.ext rfl hfault) hwhole hcolumns, hinOrder⟩
      · rintro ⟨⟨htext, hwhole, hcolumns⟩, hinOrder⟩
        rw [htext]
        exact ⟨⟨rfl, hwhole, hcolumns⟩, rfl, hinOrder⟩
  | _ => exact ⟨nofun, nofun⟩

end

/-- A record is in order if it has a task without the mark and comes after nothing or after a run. -/
theorem jobOf_ok_iff {before : List JobSpec} {r : Row} {j : JobSpec} :
    jobOf before r = .ok j ↔ j = .ofRow r ∧ j.task ≠ "" ∧ j.Readable := by
  unfold jobOf
  extract_lets task after
  have htask : task.isEmpty = true ↔ (JobSpec.ofRow r).task = "" := String.isEmpty_iff
  have hmark : task.toList.contains '#' = true ↔ '#' ∈ (JobSpec.ofRow r).task.toList := List.contains_iff_mem
  split
  case isTrue hempty =>
    refine ⟨nofun, ?_⟩
    rintro ⟨rfl, hnamed, -⟩
    exact absurd (htask.mp hempty) hnamed
  case isFalse hnonempty =>
    split
    case isTrue hmarked =>
      refine ⟨nofun, ?_⟩
      rintro ⟨rfl, -, hreadable⟩
      exact absurd (hmark.mp hmarked) hreadable.task
    case isFalse hplain =>
      split
      case h_1 f hread =>
        refine ⟨nofun, ?_⟩
        rintro ⟨rfl, -, hreadable⟩
        obtain ⟨id, hid, hfault⟩ := Option.map_eq_some_iff.mp hread
        obtain ⟨run, hrun⟩ := hreadable.after id hid
        cases hfault.symm.trans hrun
      case h_2 hread =>
        refine ⟨fun h => ?_, fun h => congrArg Except.ok h.1.symm⟩
        cases h
        refine ⟨rfl, fun h => hnonempty (htask.mpr h), fun h => hplain (hmark.mpr h), fun id hid => ?_⟩
        cases hrun : RunReference.ofId id with
        | ok run => exact ⟨run, rfl⟩
        | error f => exact absurd (Option.map_eq_some_iff.mpr ⟨id, hid, hrun⟩) (hread f)

/-- Reading jobs succeeds exactly with the jobs that the file holds. -/
theorem jobs_ok_iff {jobs : List JobSpec} :
    (FileReading.jobs path file).result = .ok jobs ↔ file.HoldsJobs jobs := by
  have hspec (before : List JobSpec) r j : jobOf before r = .ok j ↔
      j = .ofRow r ∧ (j.task ≠ "" ∧ j.Readable) ∧ ∀ b ∈ before, True := by
    simp [jobOf_ok_iff]
  rw [FileReading.jobs, ofFile_ok_iff hspec]
  refine ⟨fun ⟨hholds, hjobs, _⟩ => ⟨hholds, fun j hj => (hjobs j hj).1, fun j hj => (hjobs j hj).2⟩,
    fun ⟨hholds, hnamed, hreadable⟩ => ⟨hholds, fun j hj => ⟨hnamed j hj, hreadable j hj⟩, ?_⟩⟩
  exact List.pairwise_of_forall fun _ _ => trivial

end FileReading

end LabelScheduler
