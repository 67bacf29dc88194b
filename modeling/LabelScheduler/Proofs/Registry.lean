import LabelScheduler.Scheduler.Operations
import LabelScheduler.Proofs.Text.Blank
import LabelScheduler.Proofs.Text.Field
import Mathlib.Data.List.Forall2

/-!
# The registry of atoms only grows

Whatever is read or refused, the atoms that were made before keep their places: new names come after them, in the
order in which they were first used. This holds also where a text or a list of names is given up halfway, with some
of its atoms made already. Which names have atoms does not depend on the registry.
-/

namespace LabelScheduler

/-- The value is a text that is the name of an atom when it is trimmed: characters are left, and none is blank. -/
def Datum.Names (d : Datum) (t : String) : Prop :=
  ∃ n, d = .text n ∧ Text.trim n = t ∧ t ≠ "" ∧ ∀ c ∈ t.toList, Text.isBlank c = false

namespace Datum

variable {d : Datum} {ds : List Datum} {n t : String} {ts : List String}

/-- A value is the name of one atom only. -/
theorem Names.eq (h : d.Names t) (h' : d.Names n) : n = t := by
  obtain ⟨m, rfl, rfl, -⟩ := h
  obtain ⟨-, ⟨⟩, rfl, -⟩ := h'
  rfl

/-- Whatever the values are, all are names of atoms, or there is a first one that is not. -/
theorem names_or_first_fault (ds : List Datum) :
    (∃ ts, List.Forall₂ Names ds ts) ∨
      ∃ before d behind ts, ds = before ++ d :: behind ∧ List.Forall₂ Names before ts ∧ ∀ t, ¬ d.Names t := by
  induction ds with
  | nil => exact .inl ⟨[], .nil⟩
  | cons d ds ih =>
      by_cases hd : ∃ t, d.Names t
      · obtain ⟨t, ht⟩ := hd
        refine ih.imp (fun ⟨ts, hts⟩ => ⟨t :: ts, .cons ht hts⟩) ?_
        rintro ⟨before, e, behind, ts, rfl, hbefore, he⟩
        exact ⟨d :: before, e, behind, t :: ts, rfl, .cons ht hbefore, he⟩
      · exact .inr ⟨[], d, ds, [], rfl, .nil, not_exists.mp hd⟩

/-- The atoms that values are names of. -/
theorem mem_of_names (h : List.Forall₂ Names ds ts) : n ∈ ts ↔ ∃ d ∈ ds, d.Names n := by
  induction h with
  | nil => simp
  | @cons d t ds ts hd _ ih =>
      have hone : n = t ↔ d.Names n := ⟨fun h => h ▸ hd, hd.eq⟩
      simp only [List.mem_cons, exists_eq_or_imp, ih, hone]

end Datum

namespace Registry

section Names

variable {r : Registry} {d : Datum} {ds before : List Datum} {n t : String} {ts : List String}

/-- A trimmed text is the name of an atom unless it holds a blank. -/
theorem checkName_of_trim {n : String} (htrim : Text.trim n = n) (hnamed : n ≠ "") :
    checkName n = if Text.hasBlank n then .error (.hasBlank n) else .ok n := by
  have hnonempty : n.isEmpty = false := Bool.eq_false_iff.mpr fun h => hnamed (String.isEmpty_iff.mp h)
  simp [checkName, htrim, hnonempty]

/-- Characters that are not blank are the name of an atom. -/
theorem checkName_ofList {cs : List Char} (hne : cs ≠ []) (hplain : ∀ c ∈ cs, Text.isBlank c = false) :
    checkName (String.ofList cs) = .ok (String.ofList cs) := by
  have htrim : Text.trim (String.ofList cs) = String.ofList cs := by
    rw [Text.trim, String.toList_ofList, Text.trimBoth_eq_self hplain]
  have hblank : Text.hasBlank (String.ofList cs) = false := by
    rw [Text.hasBlank, String.toList_ofList, List.any_eq_false]
    exact fun c hc => Bool.eq_false_iff.mp (hplain c hc)
  have hnamed : String.ofList cs ≠ "" := by simpa using hne
  rw [checkName_of_trim htrim hnamed, hblank]
  rfl

/-- A name that is accepted is kept trimmed; what is kept has characters, none of which is blank. -/
theorem checkName_eq_ok (h : checkName n = .ok t) :
    Text.trim n = t ∧ t ≠ "" ∧ ∀ c ∈ t.toList, Text.isBlank c = false := by
  simp only [checkName] at h
  split at h
  case isTrue => cases h
  case isFalse hnonempty =>
    split at h
    case isTrue => cases h
    case isFalse hplain =>
      obtain rfl := Except.ok.inj h
      refine ⟨rfl, fun hempty => hnonempty (String.isEmpty_iff.mpr hempty), fun c hc => ?_⟩
      rw [Text.hasBlank, List.any_eq_true] at hplain
      exact Bool.eq_false_iff.mpr fun hblank => hplain ⟨c, hc, hblank⟩

/-- A name that is kept is accepted as it is. -/
theorem checkName_kept (h : checkName n = .ok t) : checkName t = .ok t := by
  obtain ⟨-, hne, hplain⟩ := checkName_eq_ok h
  have hchars : t.toList ≠ [] := fun hnil => hne (String.toList_eq_nil_iff.mp hnil)
  have hkept := checkName_ofList hchars hplain
  rwa [String.ofList_toList] at hkept

/-- A text is accepted exactly if it is the name of an atom when it is trimmed. -/
theorem names_text_iff : (Datum.text n).Names t ↔ checkName n = .ok t := by
  constructor
  · rintro ⟨_, ⟨⟩, rfl, hne, hplain⟩
    have hnonempty : (Text.trim n).isEmpty = false := Bool.eq_false_iff.mpr fun h => hne (String.isEmpty_iff.mp h)
    have hblank : Text.hasBlank (Text.trim n) = false :=
      List.any_eq_false.mpr fun c hc => Bool.eq_false_iff.mp (hplain c hc)
    simp [checkName, hnonempty, hblank]
  · exact fun h => ⟨n, rfl, checkName_eq_ok h⟩

/-- Where values are names, they are names of atoms that can be used as they are. -/
theorem checkName_of_names (h : List.Forall₂ Datum.Names ds ts) : ∀ t ∈ ts, checkName t = .ok t := by
  intro t ht
  obtain ⟨d, -, n, rfl, hkept⟩ := (Datum.mem_of_names h).mp ht
  exact checkName_kept (names_text_iff.mp ⟨n, rfl, hkept⟩)

/-- Every field of a text is the name of an atom. -/
theorem checkName_of_mem_fields {s : String} (hn : n ∈ Text.fields s) : checkName n = .ok n := by
  obtain ⟨hne, hplain, -⟩ := Text.mem_fields.mp hn
  have hkept := checkName_ofList hne hplain
  rwa [String.ofList_toList] at hkept

/-- The atom of a value that is a name is made if need be, and its place is given. -/
theorem internDatum_of_names (h : d.Names t) (r : Registry) :
    r.internDatum d = (r.add t, .ok ((r.add t).names.idxOf t, t)) := by
  obtain ⟨n, rfl, hkept⟩ := h
  rw [internDatum, intern, names_text_iff.mp ⟨n, rfl, hkept⟩]

/-- A value that is no name is refused in the same way by every registry, and leaves it as it is. -/
theorem internDatum_of_not_names (h : ∀ t, ¬ d.Names t) : ∃ f, ∀ r : Registry, r.internDatum d = (r, .error f) := by
  cases d with
  | text n =>
      cases hname : checkName n with
      | error f => exact ⟨f, fun r => by rw [internDatum, intern, hname]⟩
      | ok t => exact absurd (names_text_iff.mpr hname) (h t)
  | _ => exact ⟨_, fun _ => rfl⟩

/-- The atoms of names are made one after the other. -/
theorem internAll_of_names (h : List.Forall₂ Datum.Names ds ts) (r : Registry) :
    r.internAll ds = (r.addAll ts, .ok ts) := by
  induction h generalizing r with
  | nil => rfl
  | cons hd _ ih =>
      rw [internAll, internDatum_of_names hd]
      simp only [ih]
      rfl

/-- Where a value that is no name comes after some that are, the atoms of these are made, and no others. -/
theorem internAll_of_not_names (hbefore : List.Forall₂ Datum.Names before ts) {f : NameFault}
    (hd : ∀ r : Registry, r.internDatum d = (r, .error f)) (behind : List Datum) (r : Registry) :
    r.internAll (before ++ d :: behind) = (r.addAll ts, .error f) := by
  induction hbefore generalizing r with
  | nil =>
      rw [List.nil_append, internAll, hd]
      rfl
  | cons hb _ ih =>
      rw [List.cons_append, internAll, internDatum_of_names hb]
      simp only [ih]
      rfl

/-- The atoms of the fields of a text are made one after the other. -/
theorem internFields_text (r : Registry) (s : String) :
    r.internFields (.text s) = (r.addAll (Text.fields s), .ok (Text.fields s)) := by
  refine internAll_of_names (List.forall₂_map_left_iff.mpr (List.forall₂_same.mpr fun n hn => ?_)) r
  exact names_text_iff.mpr (checkName_of_mem_fields hn)

/-- Names that are used get their atoms behind those that are there, in the order of their first uses. -/
theorem names_addAll (r : Registry) (ns : List String) :
    (r.addAll ns).names = r.names ++ (ns.filter (· ∉ r.names)).eraseDups := by
  induction ns generalizing r with
  | nil => exact (List.append_nil _).symm
  | cons n ns ih =>
      have hadd : (r.addAll (n :: ns)).names = ((r.add n).addAll ns).names := rfl
      rw [hadd, ih, add]
      split
      case isTrue hn => rw [List.filter_cons_of_neg (by simpa using hn)]
      case isFalse hn =>
        have hlater : (ns.filter (· ∉ r.names)).filter (!· == n) = ns.filter (· ∉ r.names ++ [n]) := by
          rw [List.filter_filter]
          congr 1
          funext m
          rw [Bool.eq_iff_iff]
          simp [not_or, and_comm]
        rw [List.filter_cons_of_pos (by simpa using hn), List.eraseDups_cons, hlater, List.append_assoc]
        rfl

/-- The names of a registry are those that it had and those that were added. -/
theorem mem_addAll : n ∈ (r.addAll ts).names ↔ n ∈ r.names ∨ n ∈ ts := by
  rw [names_addAll, List.mem_append, List.mem_eraseDups, List.mem_filter, decide_eq_true_iff]
  by_cases hn : n ∈ r.names <;> simp [hn]

/-- A name that is used is in the registry. -/
theorem mem_add (r : Registry) (t : String) : t ∈ (r.add t).names := mem_addAll.mpr (.inr (List.mem_singleton_self t))

end Names

/-- All atoms of the first registry are in the second, at the same places. -/
def Below (r r' : Registry) : Prop := r.names <+: r'.names

variable {r r' r'' : Registry}

/-- A registry may stay as it is. -/
protected theorem Below.refl (r : Registry) : Below r r := List.prefix_rfl

/-- A registry may grow again. -/
protected theorem Below.trans (h : Below r r') (h' : Below r' r'') : Below r r'' := List.IsPrefix.trans h h'

/-- A name may be used. -/
theorem below_add (r : Registry) (n : String) : Below r (r.add n) := by
  unfold add
  split
  case isTrue => exact .refl r
  case isFalse => exact List.prefix_append _ _

/-- The place of a name stays the same. -/
theorem Below.idxOf (h : Below r r') (ht : t ∈ r.names) : r'.names.idxOf t = r.names.idxOf t := by
  obtain ⟨more, hmore⟩ := h
  rw [← hmore, List.idxOf_append_of_mem ht]

/-- Several names may be used. -/
theorem below_addAll (r : Registry) (ns : List String) : Below r (r.addAll ns) := by
  induction ns generalizing r with
  | nil => exact .refl r
  | cons n ns ih => exact (below_add r n).trans (ih _)

/-- The atom of a name may be asked for. -/
theorem below_intern (r : Registry) (n : String) : Below r (r.intern n).1 := by
  unfold intern
  split
  case h_1 => exact .refl r
  case h_2 => exact below_add r _

/-- The atom of a value may be asked for. -/
theorem below_internDatum (r : Registry) (d : Datum) : Below r (r.internDatum d).1 := by
  cases d with
  | text n => exact below_intern r n
  | _ => exact .refl r

/-- The atoms of several names may be asked for, also if one of them is no name. -/
theorem below_internAll (r : Registry) (ds : List Datum) : Below r (r.internAll ds).1 := by
  rcases Datum.names_or_first_fault ds with ⟨ts, hts⟩ | ⟨before, d, behind, ts, rfl, hbefore, hd⟩
  · rw [internAll_of_names hts]
    exact below_addAll r ts
  · obtain ⟨f, hf⟩ := internDatum_of_not_names hd
    rw [internAll_of_not_names hbefore hf]
    exact below_addAll r ts

/-- The atoms of the names in a text may be asked for. -/
theorem below_internFields (r : Registry) (d : Datum) : Below r (r.internFields d).1 := by
  cases d with
  | text n => exact below_internAll r _
  | _ => exact .refl r

/-- The atom of a part may be asked for. -/
theorem below_internPart (r : Registry) (p : Part) : Below r (r.internPart p).1 := by
  cases p with
  | label e => exact .refl r
  | atom n =>
      have hatom := below_intern r n
      rw [internPart]
      -- comparing the pairs as they are would evaluate the check of the name
      generalize r.intern n = given at hatom ⊢
      exact hatom
  | plain d =>
      have hatom := below_internDatum r d
      rw [internPart]
      generalize r.internDatum d = given at hatom ⊢
      exact hatom

/-- The atoms of several parts may be asked for. -/
theorem below_internParts (r : Registry) (ps : List Part) : Below r (r.internParts ps).1 := by
  induction ps generalizing r with
  | nil => exact .refl r
  | cons p ps ih =>
      have hfirst := below_internPart r p
      rw [internParts]
      split
      case h_1 hp =>
        rw [hp] at hfirst
        exact hfirst
      case h_2 r' n hp =>
        rw [hp] at hfirst
        exact hfirst.trans (ih r')

/-- The atoms of a node may be asked for, also if its labels or its name are refused. -/
theorem below_internLabels (r : Registry) (name : String) (labels : NodeLabels) :
    Below r (r.internLabels name labels).1 := by
  unfold internLabels
  cases labels with
  | text s =>
      have hgiven := below_internFields r (.text s)
      simp only
      split
      case h_1 => exact hgiven
      case h_2 =>
        have hown := below_internPart (r.internFields (.text s)).1 (.plain (.text name))
        generalize internPart _ _ = own at hown ⊢
        exact hgiven.trans hown
  | parts ps =>
      have hgiven := below_internParts r ps
      simp only
      split
      case h_1 => exact hgiven
      case h_2 =>
        have hown := below_internPart (r.internParts ps).1 (.plain (.text name))
        generalize internPart _ _ = own at hown ⊢
        exact hgiven.trans hown

/-- A value may be read as a label, whether it is one or not. -/
theorem below_parseLiteral (r : Registry) (v : Literal) : Below r (r.parseLiteral v).1 := by
  cases v with
  | text s => exact below_addAll r _
  | _ => exact .refl r

end Registry

end LabelScheduler
