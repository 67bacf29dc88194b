import LabelScheduler.Proofs.RunReference
import LabelScheduler.Proofs.Scenario.Contents
import LabelScheduler.Proofs.Text.Csv
import LabelScheduler.Proofs.Text.Utf8
import Mathlib.Data.List.Nodup

/-!
# Sheets of jobs

Jobs are written as a sheet under a header that has their four columns in any order, with other columns between them and
blanks around the names. What reading gives is the jobs that were written, whatever stands in their labels and in the
other columns.
-/

namespace LabelScheduler

namespace Row

section

variable {κ β : Type} [DecidableEq κ]

/-- A key that is new is put at the end. -/
theorem put_of_not_mem {k : κ} {pairs : List (κ × β)} (h : k ∉ pairs.map Prod.fst) (v : β) :
    put k v pairs = pairs ++ [(k, v)] := by
  induction pairs with
  | nil => rfl
  | cons p pairs ih =>
      obtain ⟨hp, hpairs⟩ := not_or.mp (List.mem_cons.not.mp h)
      rw [put, if_neg (Ne.symm hp), ih hpairs, List.cons_append]

/-- Pairs with different keys are all kept. -/
theorem collapse_eq_self {pairs : List (κ × β)} (h : (pairs.map Prod.fst).Nodup) : collapse pairs = pairs := by
  have hkept (kept : List (κ × β)) (h : ((kept ++ pairs).map Prod.fst).Nodup) :
      pairs.foldl (fun kept p => put p.1 p.2 kept) kept = kept ++ pairs := by
    clear * - h
    induction pairs generalizing kept with
    | nil => exact (List.append_nil kept).symm
    | cons p pairs ih =>
        rw [List.append_cons] at h ⊢
        have hfirst := (h.sublist ((List.sublist_append_left _ pairs).map Prod.fst))
        rw [List.map_append] at hfirst
        have hnew : p.1 ∉ kept.map Prod.fst := fun hp =>
          (List.disjoint_of_nodup_append hfirst) hp (List.mem_singleton_self p.1)
        rw [List.foldl_cons, put_of_not_mem hnew]
        exact ih _ h
  exact hkept [] h

end

variable {header : List String} {h : String}

/-- Under different names a record has one cell for each. -/
theorem columns_ofCells (hdistinct : (header.map Text.trim).Nodup) (cell : String → String) :
    (ofCells header (header.map cell)).columns = header.map fun h => (Text.trim h, Cell.text (cell h)) := by
  have hpair (hs : List String) : pair hs (hs.map cell) = hs.map fun h => (some h, Cell.text (cell h)) := by
    induction hs with
    | nil => rfl
    | cons h hs ih => rw [List.map_cons, pair, ih, List.map_cons]
  have hsurplus : surplus header (header.map cell) = [] := by
    rw [surplus, List.drop_of_length_le (List.length_map cell).le]
  have hraw : ((header.map fun h => (some h, Cell.text (cell h))).map Prod.fst).Nodup := by
    rw [List.map_map]
    exact (List.Nodup.of_map _ hdistinct).map (Option.some_injective String)
  have htrimmed : ((header.map fun h => (Text.trim h, Cell.text (cell h))).map Prod.fst).Nodup := by
    rw [List.map_map]
    exact hdistinct
  rw [ofCells, hpair, hsurplus, collapse_eq_self hraw, List.append_nil, List.map_map]
  exact collapse_eq_self htrimmed

/-- The text under a name is that of the cell. -/
theorem text_ofCells (hdistinct : (header.map Text.trim).Nodup) (cell : String → String) (hh : h ∈ header) :
    (ofCells header (header.map cell)).text (Text.trim h) = Text.trim (cell h) := by
  have hfind : header.find? (fun k => Text.trim k == Text.trim h) = some h := by
    obtain ⟨before, after, rfl⟩ := List.append_of_mem hh
    refine List.find?_eq_some_iff_append.mpr ⟨beq_self_eq_true _, before, after, rfl, fun k hk => ?_⟩
    rw [List.map_append, List.map_cons] at hdistinct
    have hother : Text.trim k ≠ Text.trim h := fun heq =>
      List.disjoint_of_nodup_append hdistinct (List.mem_map_of_mem hk) (heq ▸ List.mem_cons_self)
    simpa using hother
  rw [text, columns_ofCells hdistinct, List.find?_map]
  simp only [Function.comp_def, hfind, Option.map_some]

/-- A text that is left out if it is empty. -/
theorem text?_eq {r : Row} {column : String} {t : Option String} (htext : r.text column = t.getD "")
    (ht : t ≠ some "") : r.text? column = t := by
  unfold text?
  rw [htext]
  cases t with
  | none => rfl
  | some s =>
      have hs : ¬ s.isEmpty = true := fun h => ht (congrArg some (String.isEmpty_iff.mp h))
      exact if_neg hs

end Row

namespace JobSpec

/-- The names of the columns of a job. -/
def columnNames : List String := ["task", "label", "upstream", "after"]

/-- The columns of a job with the texts that are written in them; what is left out is empty. -/
def columns (j : JobSpec) : List (String × String) :=
  [("task", j.task), ("label", j.label), ("upstream", j.awaited.getD ""), ("after", j.after.getD "")]

/-- The text that is written in a column; `other` has those of all columns but the job's. -/
def cell (j : JobSpec) (other : String → String) (column : String) : String :=
  (j.columns.lookup (Text.trim column)).getD (other column)

/-- The job has a task, its texts are trimmed and can be cells, and what it waits for is no empty text. -/
structure Writable (j : JobSpec) : Prop extends Readable j where
  named : j.task ≠ ""
  awaited : j.awaited ≠ some ""
  trimmed : ∀ c ∈ j.columns, Text.trim c.2 = c.2
  fits : ∀ c ∈ j.columns, c.2.length ≤ Text.Csv.cellLimit

variable {j : JobSpec} {header : List String} {other : String → String}

/-- What stands in a column of the job is found there. -/
theorem lookup_columns {column t : String} (h : (column, t) ∈ j.columns) : j.columns.lookup column = some t := by
  simp only [columns, List.mem_cons, List.not_mem_nil, or_false] at h
  rcases h with h | h | h | h <;> cases h <;> rfl

/-- The text in a column is the job's or one of the others. -/
theorem length_cell_le (hj : j.Writable) {column : String}
    (hother : Text.trim column ∉ columnNames → (other column).length ≤ Text.Csv.cellLimit) :
    (j.cell other column).length ≤ Text.Csv.cellLimit := by
  rw [cell]
  cases hfound : j.columns.lookup (Text.trim column) with
  | none =>
      refine hother fun hmem => ?_
      obtain ⟨c, hc, heq⟩ : ∃ c ∈ j.columns, c.1 = Text.trim column := List.mem_map.mp hmem
      have hdiffers := List.lookup_eq_none_iff.mp hfound c hc
      rw [heq] at hdiffers
      simp at hdiffers
  | some t =>
      obtain ⟨before, after, heq, -⟩ := List.lookup_eq_some_iff.mp hfound
      exact hj.fits _ (heq ▸ List.mem_append_right before List.mem_cons_self)

/-- A record of the written texts has them in the job's columns. -/
theorem text_written (hj : j.Writable) (hdistinct : (header.map Text.trim).Nodup) {column t : String}
    (hcolumn : column ∈ header.map Text.trim) (h : (column, t) ∈ j.columns) :
    (Row.ofCells header (header.map (j.cell other))).text column = t := by
  obtain ⟨name, hname, htrim⟩ := List.mem_map.mp hcolumn
  have hcell : j.cell other name = t := by rw [cell, htrim, lookup_columns h, Option.getD_some]
  have htext := Row.text_ofCells hdistinct (j.cell other) hname
  rw [htrim, hcell] at htext
  exact htext.trans (hj.trimmed (column, t) h)

/-- A job comes after no run whose reference is empty. -/
theorem Readable.after_ne (h : j.Readable) : j.after ≠ some "" := by
  intro hempty
  obtain ⟨r, hr⟩ := h.after "" hempty
  cases hr

/-- A record of the written texts stands for the job. -/
theorem ofRow_written (hj : j.Writable) (hdistinct : (header.map Text.trim).Nodup)
    (hcolumns : ∀ c ∈ j.columns, c.1 ∈ header.map Text.trim) :
    ofRow (Row.ofCells header (header.map (j.cell other))) = j := by
  have htext (column t : String) (h : (column, t) ∈ j.columns) :
      (Row.ofCells header (header.map (j.cell other))).text column = t :=
    text_written hj hdistinct (hcolumns (column, t) h) h
  have htask := htext "task" j.task (by simp [columns])
  have hlabel := htext "label" j.label (by simp [columns])
  have hawaited := Row.text?_eq (htext "upstream" (j.awaited.getD "") (by simp [columns])) hj.awaited
  have hafter := Row.text?_eq (htext "after" (j.after.getD "") (by simp [columns])) hj.after_ne
  rw [ofRow, htask, hlabel, hawaited, hafter]

end JobSpec

/-- A job as it is written into a sheet: the texts that the other columns have, and the end of its row. -/
structure JobRow where
  job : JobSpec
  other : String → String
  ending : Text.Csv.RowEnd

/-- A sheet of jobs as it is written: the header with its end, and the jobs. -/
structure JobSheet where
  header : List String
  ending : Text.Csv.RowEnd
  rows : List JobRow

namespace JobSheet

/-- The jobs of a sheet. -/
def jobs (s : JobSheet) : List JobSpec := s.rows.map JobRow.job

/-- The written rows of a sheet. -/
def written (s : JobSheet) : List (List String × Text.Csv.RowEnd) :=
  (s.header, s.ending) :: s.rows.map fun r => (s.header.map (r.job.cell r.other), r.ending)

/-- The file that a sheet is written to. -/
def file (s : JobSheet) : File := .bytes (Text.Utf8.encode (Text.Csv.written s.written))

/-- The names of the columns are distinct and the job's are among them, all jobs can be written, and the other texts
can be cells. -/
structure Writable (s : JobSheet) : Prop where
  distinct : (s.header.map Text.trim).Nodup
  complete : ∀ c ∈ JobSpec.columnNames, c ∈ s.header.map Text.trim
  fits : ∀ name ∈ s.header, name.length ≤ Text.Csv.cellLimit
  jobs : ∀ r ∈ s.rows, r.job.Writable
  others : ∀ r ∈ s.rows, ∀ name ∈ s.header, Text.trim name ∉ JobSpec.columnNames →
    (r.other name).length ≤ Text.Csv.cellLimit

variable {s : JobSheet}

/-- No row of a sheet is without cells, and no cell is too long. -/
theorem Writable.rows (h : s.Writable) :
    ∀ row ∈ s.written, row.1 ≠ [] ∧ ∀ t ∈ row.1, t.length ≤ Text.Csv.cellLimit := by
  have hheader : s.header ≠ [] := by
    intro hempty
    have htask := h.complete "task" List.mem_cons_self
    rw [hempty] at htask
    cases htask
  refine List.forall_mem_cons.mpr ⟨⟨hheader, h.fits⟩, List.forall_mem_map.mpr fun r hr => ⟨?_, ?_⟩⟩
  · exact List.map_eq_nil_iff.not.mpr hheader
  · exact List.forall_mem_map.mpr fun name hname => JobSpec.length_cell_le (h.jobs r hr) (h.others r hr name hname)

/-- The written text is read as the header and one record for each job. -/
theorem Writable.read (h : s.Writable) : Sheet.read (Text.Csv.written s.written) false =
    ⟨some s.header, s.rows.map fun r => Row.ofCells s.header (s.header.map (r.job.cell r.other)), none⟩ := by
  have hrows := Text.Csv.read_written (fun row hrow => (h.rows row hrow).1) fun row hrow => (h.rows row hrow).2
  have hcells : ∀ row ∈ (s.rows.map fun r => (s.header.map (r.job.cell r.other), r.ending)).map Prod.fst,
      (!row.isEmpty) = true := by
    refine List.forall_mem_map.mpr fun row hrow => ?_
    have hnonempty := (h.rows row (List.mem_cons_of_mem _ hrow)).1
    simpa using hnonempty
  rw [Sheet.read, hrows]
  simp only [written, List.map_cons]
  rw [List.filter_eq_self.mpr hcells, List.map_map, List.map_map]
  rfl

/-- The file holds the jobs of the sheet. -/
theorem Writable.holdsJobs (h : s.Writable) : s.file.HoldsJobs s.jobs := by
  have hjobs : (Sheet.read (Text.Csv.written s.written) false).records.map JobSpec.ofRow = s.jobs := by
    rw [h.read, List.map_map]
    refine List.map_congr_left fun r hr => JobSpec.ofRow_written (h.jobs r hr) h.distinct fun c hc => ?_
    exact h.complete c.1 (List.mem_map_of_mem hc)
  have hlacking : (Sheet.read (Text.Csv.written s.written) false).lacking FileReading.jobColumns = [] := by
    rw [h.read]
    refine List.filter_eq_nil_iff.mpr fun c hc => ?_
    have hrequired : FileReading.jobColumns ⊆ JobSpec.columnNames := by decide
    have hfound : c ∈ s.header.map Text.trim := h.complete c (hrequired hc)
    simpa using hfound
  have hwhole : (Sheet.read (Text.Csv.written s.written) false).stop ≠ some .tooLong := by
    rw [h.read]
    exact nofun
  exact {
    holds := hjobs ▸ .sheet (Text.Utf8.decode_encode _) hwhole hlacking
    named := List.forall_mem_map.mpr fun r hr => (h.jobs r hr).named
    readable := List.forall_mem_map.mpr fun r hr => (h.jobs r hr).toReadable }

/-- A sheet is read back from the file that it is written to: what is read is its jobs in order, however the columns are
ordered and the rows end, and whatever stands in the labels and in the other columns. -/
theorem read_file (s : JobSheet) (h : s.Writable) (path : String) :
    (FileReading.jobs path s.file).result = .ok s.jobs :=
  FileReading.jobs_ok_iff.mpr h.holdsJobs

/-- A label with a quote, a comma and a line break, and another text that begins like a header. -/
theorem read_file_line_break :
    let s : JobSheet := ⟨["after", "note", " label ", "task", "upstream"], .both,
      [⟨⟨"p1", "\"a b\",\r\nc", none, none⟩, fun _ => "task,label\n", .carriageReturn⟩,
        ⟨⟨"p2", "", some "p1", some "p1#1"⟩, fun _ => "", .lineFeed⟩]⟩
    s.Writable ∧ (FileReading.jobs "jobs.csv" s.file).result =
      .ok [⟨"p1", "\"a b\",\r\nc", none, none⟩, ⟨"p2", "", some "p1", some "p1#1"⟩] := by
  intro s
  have hlabel : JobSpec.Writable ⟨"p1", "\"a b\",\r\nc", none, none⟩ :=
    { task := by decide, after := nofun, named := by decide, awaited := nofun, trimmed := by decide, fits := by decide }
  have hrun : JobSpec.Writable ⟨"p2", "", some "p1", some "p1#1"⟩ :=
    { task := by decide
      after := fun id h => ⟨⟨⟨"p1", by decide⟩, 1, by decide⟩, by cases h; rfl⟩
      named := by decide, awaited := by decide, trimmed := by decide, fits := by decide }
  have hs : s.Writable :=
    { distinct := by decide, complete := by decide, fits := by decide
      jobs := by rintro r (_ | ⟨_, _ | ⟨_, ⟨⟩⟩⟩) <;> assumption
      others := by decide }
  exact ⟨hs, read_file s hs "jobs.csv"⟩

end JobSheet

end LabelScheduler
