import LabelScheduler.Proofs.Label.Grammar

/-!
# Writing and reading again

What reading gives is canonical, so reading it again after it was written gives the same expression. An
expression that was built in any other way is read as its canonical form when it is written, which means the
same and is written in the same way, but is the same expression only if it was canonical before.
-/

namespace LabelScheduler

/-- What reading gives: a canonical expression whose atoms can be written. -/
structure Label.Regular (e : Label) : Prop where
  canonical : e.Canonical
  named : e.Named

/-- Whatever text an expression is read from, the expression is canonical and its atoms can be written. -/
theorem parseLabel_regular {s : String} {e : Label} (h : parseLabel s = .ok e) : e.Regular := by
  obtain ⟨-, -, d, hlexemes, rfl⟩ := parseLabel_eq_ok_iff.mp h
  refine ⟨d.canonical_label, fun n hn => ?_⟩
  have hname := d.ofName_mem n hn
  rw [hlexemes] at hname
  obtain ⟨t, ht, hlexeme⟩ := List.mem_map.mp hname
  have hwritten := scanFrom_written 0 s.toList t ht
  rw [hlexeme] at hwritten
  exact hwritten.named rfl

/-- An expression that was read from a text is read again from its own written form, with whatever registry, as
the very same expression; so two such expressions are written alike only if they are the same. -/
theorem Registry.parse_name (r : Registry) (s : String) (e : Label) (h : (r.parse s).2 = .ok e) :
    (∀ r' : Registry, (r'.parse e.name).2 = .ok e) ∧
      ∀ (r' : Registry) (s' : String) (e' : Label), (r'.parse s').2 = .ok e' → (e.name = e'.name ↔ e = e') := by
  have hself {s : String} {e : Label} (h : parseLabel s = .ok e) : parseLabel e.name = .ok e := by
    have he := parseLabel_regular h
    rw [he.named.parseLabel_name, Label.reread_of_canonical he.canonical]
  refine ⟨fun _ => hself h, fun _ s' e' h' => ⟨fun hname => ?_, congrArg Label.name⟩⟩
  have hread := hself h
  rw [hname, hself h'] at hread
  exact (Except.ok.inj hread).symm

/-- Dashes at the ends of atoms stay apart from the arrow between them. -/
theorem Registry.parse_name_dashes :
    let e : Label := .binary .implies (.atom "a-" false) (.atom "-b" false) false
    (empty.parse "a- -> -b").2 = .ok e ∧ e.name = "a-->-b" ∧ ∀ r : Registry, (r.parse e.name).2 = .ok e :=
  ⟨rfl, by decide, (parse_name empty "a- -> -b" _ rfl).1⟩

/-- An expression that was built in any way over atoms with proper names is read from its written form as one
that means the same and is written in the same way, and as the very same one exactly if it is canonical. -/
theorem Registry.parse_name_built (e : Label) (he : e.Named) :
    ∃ r : Label, (∀ reg : Registry, (reg.parse e.name).2 = .ok r) ∧ (∀ has, r.holds has = e.holds has) ∧
      r.name = e.name ∧ (r = e ↔ e.Canonical) :=
  ⟨e.reread, fun _ => he.parseLabel_name, fun has => Label.holds_reread has e, Label.name_reread e,
    Label.reread_eq_self_iff⟩

/-- A conjunction that leans to the right is read as one that leans to the left. -/
theorem Registry.parse_name_built_right_nested :
    let e : Label :=
      .binary .and (.atom "a" false) (.binary .and (.atom "b" false) (.atom "c" false) false) false
    e.Named ∧ ¬ e.Canonical ∧ ∃ r : Label, (∀ reg : Registry, (reg.parse e.name).2 = .ok r) ∧
      (∀ has, r.holds has = e.holds has) ∧ r.name = e.name ∧ (r = e ↔ e.Canonical) := by
  have hnamed : Label.Named
      (.binary .and (.atom "a" false) (.binary .and (.atom "b" false) (.atom "c" false) false) false) := by
    unfold Label.Named
    decide
  exact ⟨hnamed, by decide, parse_name_built _ hnamed⟩

end LabelScheduler
