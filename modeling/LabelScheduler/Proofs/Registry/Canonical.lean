import LabelScheduler.Registry.Call
import LabelScheduler.Proofs.Label.FirstFault
import LabelScheduler.Proofs.Label.TruthTable

/-!
# Every name has one atom

Which names a call adds to a registry does not depend on the registry. They are those that the call comes upon before
its end or its first fault, trimmed, and each of them can be the name of an atom. So a registry after any calls, those
among them that failed included, is the empty one with such names added. A name is added behind those that are there,
and only if it is not among them, so it keeps its place for good and is the only one there.
-/

namespace LabelScheduler

variable {d : Datum} {n t : String} {ts : List String}

/-- The atoms that reading meets are those of tokens. -/
theorem exists_token_of_mem_atoms {c : Cursor} {illegal : Option IllegalChar} {tokens : List Token}
    (h : n ∈ (readFrom c illegal tokens).atoms) : ∃ token ∈ tokens, token.kind = .atom ∧ token.text = n := by
  induction tokens generalizing c with
  | nil =>
      rw [readFrom.eq_def] at h
      dsimp only at h
      split at h <;> cases h
  | cons token tokens ih =>
      rw [readFrom] at h
      split at h
      case h_1 => cases h
      case h_2 c' _ =>
        have hlater (h : n ∈ (readFrom c' illegal tokens).atoms) :
            ∃ u ∈ token :: tokens, u.kind = .atom ∧ u.text = n := by
          obtain ⟨u, hu, hatom⟩ := ih h
          exact ⟨u, List.mem_cons_of_mem _ hu, hatom⟩
        dsimp only at h
        split at h
        case isTrue hsettled =>
          rcases List.mem_cons.mp h with rfl | h
          · exact ⟨token, List.mem_cons_self, hsettled.1, rfl⟩
          · exact hlater h
        case isFalse => exact hlater h

namespace Registry

variable {r r' : Registry} {place : Nat}

section Growth

/-- The names that reading meets can be those of atoms. -/
theorem checkName_of_mem_atoms {s : String} (h : n ∈ (readLabel s).atoms) : checkName n = .ok n := by
  unfold readLabel at h
  split at h
  case isTrue => cases h
  case isFalse =>
    obtain ⟨token, htoken, hkind, rfl⟩ := exists_token_of_mem_atoms h
    exact checkName_text htoken hkind

/-- The names of a registry are different, and each can be that of an atom as it stands there. -/
structure Canonical (r : Registry) : Prop where
  distinct : r.names.Nodup
  named : ∀ n ∈ r.names, checkName n = .ok n

/-- So they are if such a name is used. -/
theorem Canonical.add (h : r.Canonical) (ht : checkName t = .ok t) : (r.add t).Canonical := by
  unfold Registry.add
  split
  case isTrue => exact h
  case isFalse hnew =>
    refine ⟨?_, fun n hn => ?_⟩
    · rw [← List.concat_eq_append]
      exact (List.nodup_concat _ _).mpr ⟨hnew, h.distinct⟩
    · rcases List.mem_append.mp hn with hn | hn
      · exact h.named n hn
      · rwa [List.mem_singleton.mp hn]

/-- So they are if several such names are used. -/
theorem Canonical.addAll (h : r.Canonical) (hts : ∀ t ∈ ts, checkName t = .ok t) : (r.addAll ts).Canonical := by
  induction ts generalizing r with
  | nil => exact h
  | cons t ts ih =>
      obtain ⟨ht, hts⟩ := List.forall_mem_cons.mp hts
      exact ih (h.add ht) hts

/-- Asking for an atom gives the one of the name that the value is, at its place. -/
theorem perform_atom_eq_ok_iff :
    (r.perform (.atom d)).2 = .ok (.atom place t) ↔ d.Names t ∧ place = (r.add t).names.idxOf t := by
  rw [perform]
  by_cases hd : ∃ n, d.Names n
  · obtain ⟨n, hn⟩ := hd
    rw [internDatum_of_names hn]
    constructor
    · rintro ⟨⟩
      exact ⟨hn, rfl⟩
    · rintro ⟨ht, rfl⟩
      obtain rfl := hn.eq ht
      rfl
  · obtain ⟨f, hf⟩ := internDatum_of_not_names (not_exists.mp hd)
    rw [hf]
    exact ⟨nofun, fun h => absurd ⟨t, h.1⟩ hd⟩

/-- What a call adds to a registry are names of atoms, the same for every registry. -/
theorem perform_adds (c : Call) :
    ∃ ts, (∀ t ∈ ts, checkName t = .ok t) ∧ ∀ r : Registry, (r.perform c).1 = r.addAll ts := by
  -- calls that only look at the registry, and those that are refused at once
  have hnothing {f : Registry → Registry} (h : ∀ r, f r = r) :
      ∃ ts, (∀ t ∈ ts, checkName t = .ok t) ∧ ∀ r : Registry, f r = r.addAll ts := ⟨[], nofun, h⟩
  cases c with
  | atom d =>
      by_cases hd : ∃ t, d.Names t
      · obtain ⟨t, ht⟩ := hd
        refine ⟨[t], checkName_of_names (.cons ht .nil), fun r => ?_⟩
        rw [perform, internDatum_of_names ht]
        rfl
      · obtain ⟨f, hf⟩ := internDatum_of_not_names (not_exists.mp hd)
        exact hnothing fun r => by rw [perform, hf]
  | atoms v =>
      cases hv : v.elements? with
      | none => exact hnothing fun r => by rw [perform, hv]
      | some ds =>
          rcases Datum.names_or_first_fault ds with ⟨ts, hts⟩ | ⟨before, d, behind, ts, rfl, hbefore, hd⟩
          · refine ⟨ts, checkName_of_names hts, fun r => ?_⟩
            simp only [perform, hv, internAll_of_names hts]
          · obtain ⟨f, hf⟩ := internDatum_of_not_names hd
            refine ⟨ts, checkName_of_names hbefore, fun r => ?_⟩
            simp only [perform, hv, internAll_of_not_names hbefore hf]
  | fields d =>
      cases d with
      | text s =>
          exact ⟨Text.fields s, fun t => checkName_of_mem_fields, fun r => congrArg Prod.fst (r.internFields_text s)⟩
      | _ => exact hnothing fun _ => rfl
  | get d => exact hnothing fun _ => rfl
  | contains d => exact hnothing fun _ => rfl
  | names => exact hnothing fun _ => rfl
  | parse v =>
      cases v with
      | text s => exact ⟨_, fun t => checkName_of_mem_atoms, fun r => rfl⟩
      | _ => exact hnothing fun _ => rfl

/-- What calls add to a registry, one after another, are names of atoms, the same for every registry. -/
theorem after_adds (calls : List Call) :
    ∃ ts, (∀ t ∈ ts, checkName t = .ok t) ∧ ∀ r : Registry, r.after calls = r.addAll ts := by
  induction calls with
  | nil => exact ⟨[], nofun, fun _ => rfl⟩
  | cons c calls ih =>
      obtain ⟨us, hus, hlater⟩ := ih
      obtain ⟨ts, hts, hfirst⟩ := perform_adds c
      refine ⟨ts ++ us, fun t ht => (List.mem_append.mp ht).elim (hts t) (hus t), fun r => ?_⟩
      calc r.after (c :: calls)
        _ = (r.perform c).1.after calls := rfl
        _ = (r.addAll ts).addAll us := by rw [hfirst, hlater]
        _ = r.addAll (ts ++ us) := (List.foldl_append ..).symm

/-- A registry that was empty at first is canonical after any calls. -/
theorem canonical_after (calls : List Call) : (empty.after calls).Canonical := by
  obtain ⟨ts, hts, hafter⟩ := after_adds calls
  have hempty : empty.Canonical := ⟨List.nodup_nil, nofun⟩
  rw [hafter]
  exact hempty.addAll hts

/-- Names keep their places whatever is called. -/
theorem below_after (r : Registry) (calls : List Call) : Below r (r.after calls) := by
  obtain ⟨ts, -, hafter⟩ := after_adds calls
  rw [hafter]
  exact below_addAll r ts

end Growth

section Calls

/-- A value is given an atom exactly if it is the name of one, namely the entry with that name. -/
theorem names_iff_perform_atom (r : Registry) : d.Names t ↔
    ∃ place, (r.perform (.atom d)).2 = .ok (.atom place t) ∧ (r.perform (.atom d)).1.names[place]? = some t := by
  constructor
  · intro h
    refine ⟨_, perform_atom_eq_ok_iff.mpr ⟨h, rfl⟩, ?_⟩
    rw [perform, internDatum_of_names h]
    exact List.getElem?_idxOf (mem_add r t)
  · rintro ⟨place, hgiven, -⟩
    exact (perform_atom_eq_ok_iff.mp hgiven).1

/-- Two names are given the same atom, whatever is called between them, exactly if they are the same when trimmed. -/
theorem perform_atom_same {n' t' : String} {place' : Nat} (more : List Call)
    (h : (r.perform (.atom (.text n))).2 = .ok (.atom place t))
    (h' : (((r.perform (.atom (.text n))).1.after more).perform (.atom (.text n'))).2 = .ok (.atom place' t')) :
    place = place' ↔ Text.trim n = Text.trim n' := by
  obtain ⟨hn, rfl⟩ := perform_atom_eq_ok_iff.mp h
  obtain ⟨hn', rfl⟩ := perform_atom_eq_ok_iff.mp h'
  have hfirst : (r.perform (.atom (.text n))).1 = r.add t := by rw [perform, internDatum_of_names hn]
  rw [hfirst]
  have hbelow : Below (r.add t) (((r.add t).after more).add t') := (below_after _ more).trans (below_add _ t')
  obtain ⟨_, ⟨⟩, rfl, -⟩ := hn
  obtain ⟨_, ⟨⟩, rfl, -⟩ := hn'
  -- the place given first is also the one in the last registry, where the names can be compared
  rw [← hbelow.idxOf (mem_add r _)]
  exact List.idxOf_inj (hbelow.subset (mem_add r _))

/-- The names are listed in order, all of them and no others. -/
theorem Canonical.perform_names (h : r.Canonical) :
    ∃ ns, r.perform .names = (r, .ok (.names ns)) ∧ ns.Pairwise (· < ·) ∧ ns.Perm r.names := by
  have hordered := Text.pairwise_sortNames r.names
  have hdistinct : (Text.sortNames r.names).Nodup := hordered.imp fun hlt => String.ne_of_lt hlt
  exact ⟨_, rfl, hordered, (List.perm_ext_iff_of_nodup hdistinct h.distinct).mpr fun n => Text.mem_sortNames⟩

/-- The fields of a text are given and registered, and nothing else. -/
theorem perform_fields (r : Registry) (s : String) :
    ∃ later ns, r.perform (.fields (.text s)) = (later, .ok (.atoms ns)) ∧
      (∀ n, n ∈ ns ↔ Text.IsField n s) ∧ ∀ n, n ∈ later.names ↔ n ∈ r.names ∨ Text.IsField n s := by
  refine ⟨r.addAll (Text.fields s), Text.fields s, ?_, fun n => Text.mem_fields, fun n => ?_⟩
  · rw [perform, internFields_text]
    rfl
  · rw [mem_addAll, Text.mem_fields]

/-- Several values are refused if they cannot be gone through, or else at the first that is no name; then those before
it have been registered, and no others. -/
theorem perform_atoms_refused {v : Literal} {f : CallFault} (h : r.perform (.atoms v) = (r', .error f)) :
    v.elements? = none ∧ r' = r ∨
    ∃ before d behind, v.elements? = some (before ++ d :: behind) ∧ (∀ b ∈ before, ∃ t, b.Names t) ∧
      (r.perform (.atom d)).2 = .error f ∧ ∀ n, n ∈ r'.names ↔ n ∈ r.names ∨ ∃ b ∈ before, b.Names n := by
  cases hv : v.elements? with
  | none =>
      simp only [perform, hv] at h
      exact .inl ⟨rfl, (Prod.mk.inj h).1.symm⟩
  | some ds =>
      simp only [perform, hv] at h
      rcases Datum.names_or_first_fault ds with ⟨ts, hts⟩ | ⟨before, d, behind, ts, rfl, hbefore, hd⟩
      · rw [internAll_of_names hts] at h
        cases (Prod.mk.inj h).2
      · obtain ⟨g, hg⟩ := internDatum_of_not_names hd
        rw [internAll_of_not_names hbefore hg] at h
        obtain ⟨rfl, hfault⟩ := Prod.mk.inj h
        have hnames : List.Forall₂ (fun b t => (∃ t, b.Names t) ∧ b.Names t) before ts :=
          hbefore.imp fun _ t ht => ⟨⟨t, ht⟩, ht⟩
        refine .inr ⟨before, d, behind, rfl, ((List.forall₂_and_left _ _).mp hnames).1, ?_, fun n => ?_⟩
        · rw [perform, hg]
          exact hfault
        · rw [mem_addAll, Datum.mem_of_names hbefore]

/-- After any calls, also if some of them failed, the names of a registry are different, not empty and without blanks,
and whatever is called next, they stay where they are, with others behind them. A value is given an atom exactly if it
is the name of one when it is trimmed, namely the entry with that name, and two texts are given the same atom, whatever
is called between them, exactly if they are the same when trimmed. The names are listed in order, all of them and no
others. The fields of a text are always given and registered, and nothing else. If several names are asked for and
refused, there were none to go through, or the registry got the names before the first that is refused and none for
those behind it. -/
theorem after_canonical (calls : List Call) :
    let r := empty.after calls
    (r.names.Nodup ∧ ∀ n ∈ r.names, n ≠ "" ∧ ∀ c ∈ n.toList, Text.isBlank c = false) ∧
    (∀ more, r.names <+: (r.after more).names) ∧
    (∀ d t, d.Names t ↔
      ∃ place, (r.perform (.atom d)).2 = .ok (.atom place t) ∧ (r.perform (.atom d)).1.names[place]? = some t) ∧
    (∀ n n' more place place' t t', (r.perform (.atom (.text n))).2 = .ok (.atom place t) →
      (((r.perform (.atom (.text n))).1.after more).perform (.atom (.text n'))).2 = .ok (.atom place' t') →
      (place = place' ↔ Text.trim n = Text.trim n')) ∧
    (∃ ns, r.perform .names = (r, .ok (.names ns)) ∧ ns.Pairwise (· < ·) ∧ ns.Perm r.names) ∧
    (∀ s, ∃ later ns, r.perform (.fields (.text s)) = (later, .ok (.atoms ns)) ∧
      (∀ n, n ∈ ns ↔ Text.IsField n s) ∧ ∀ n, n ∈ later.names ↔ n ∈ r.names ∨ Text.IsField n s) ∧
    ∀ v later f, r.perform (.atoms v) = (later, .error f) →
      v.elements? = none ∧ later = r ∨
      ∃ before d behind, v.elements? = some (before ++ d :: behind) ∧ (∀ b ∈ before, ∃ t, b.Names t) ∧
        (r.perform (.atom d)).2 = .error f ∧ ∀ n, n ∈ later.names ↔ n ∈ r.names ∨ ∃ b ∈ before, b.Names n := by
  intro r
  have hcanonical : r.Canonical := canonical_after calls
  have hnamed : ∀ n ∈ r.names, n ≠ "" ∧ ∀ c ∈ n.toList, Text.isBlank c = false := fun n hn =>
    (checkName_eq_ok (hcanonical.named n hn)).2
  exact ⟨⟨hcanonical.distinct, hnamed⟩, below_after r, fun d t => names_iff_perform_atom r,
    fun n n' more place place' t t' => perform_atom_same more, hcanonical.perform_names, perform_fields r,
    fun v later f => perform_atoms_refused⟩

/-- Names are asked for in a list with one that is refused, and then in a text that ends too early. -/
example :
    let calls : List Call :=
      [.atoms (.list [.text "zeta", .text "a b", .text "mid"]), .parse (.text "x && (y"), .fields (.text "y  x ")]
    (empty.after calls).names = ["zeta", "x", "y"] ∧
      ((empty.after calls).perform (.atom (.text " y"))).2 = .ok (.atom 2 "y") := by
  decide

end Calls

end Registry

end LabelScheduler
