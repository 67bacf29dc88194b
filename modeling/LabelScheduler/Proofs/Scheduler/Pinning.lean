import LabelScheduler.Proofs.Label.Equivalence
import LabelScheduler.Proofs.Label.Naming
import LabelScheduler.Proofs.Scheduler.Opening

/-!
# The labels of nodes

Nodes carry atoms of the registry, among which is the one of their own name, so that work can be pinned to a node by
its name. This holds as a node is registered, and nothing that happens later takes atoms from nodes or from the
registry. Hence a label can be asked for exactly if its name can be written in an expression.
-/

namespace LabelScheduler

open Scheduler

namespace Registry

variable {r r' : Registry} {t : String}

/-- The names are those of atoms of the registry, as they are kept. -/
def Has (r : Registry) (names : List String) : Prop := ∀ n ∈ names, checkName n = .ok n ∧ n ∈ r.names

/-- A registry that has grown has them too. -/
theorem Has.below {names : List String} (h : r.Has names) (hr : r.Below r') : r'.Has names :=
  fun n hn => ⟨(h n hn).1, hr.subset (h n hn).2⟩

/-- One more name may be that of an atom. -/
theorem Has.cons {names : List String} (h : r.Has names) (hname : checkName t = .ok t) (hmem : t ∈ r.names) :
    r.Has (t :: names) :=
  List.forall_mem_cons.mpr ⟨⟨hname, hmem⟩, h⟩

/-- Where the atom of a part was given, it is that of a name, and of the text if the part is a text. -/
theorem internPart_eq_ok {p : Part} (h : r.internPart p = (r', .ok t)) :
    ∃ n place, r.intern n = (r', .ok (place, t)) ∧ ∀ name, p = .plain (.text name) → n = name := by
  have hatom {given : Registry × Except NameFault (Nat × String)}
      (h : (given.1, (given.2.map (·.2)).mapError RecipeFault.name) = (r', .ok t)) :
      ∃ place, given = (r', .ok (place, t)) := by
    obtain ⟨r₁, f | a⟩ := given
    · cases (Prod.mk.inj h).2
    · obtain ⟨rfl, hname⟩ := Prod.mk.inj h
      exact ⟨a.1, by rw [← Except.ok.inj hname]⟩
  cases p with
  | label e => cases (Prod.mk.inj h).2
  | atom n =>
      rw [internPart] at h
      generalize hn : r.intern n = given at h
      obtain ⟨place, rfl⟩ := hatom h
      exact ⟨n, place, hn, fun _ hplain => Part.noConfusion hplain⟩
  | plain d =>
      cases d with
      | text n =>
          rw [internPart, internDatum] at h
          generalize hn : r.intern n = given at h
          obtain ⟨place, rfl⟩ := hatom h
          exact ⟨n, place, hn, fun name hname => Datum.text.inj (Part.plain.inj hname)⟩
      | _ => cases (Prod.mk.inj h).2

/-- Where the atoms of several names were given, they are atoms of the registry. -/
theorem has_of_internAll {ds : List Datum} {names : List String} (h : r.internAll ds = (r', .ok names)) :
    r'.Has names := by
  rcases Datum.names_or_first_fault ds with ⟨ts, hts⟩ | ⟨before, d, behind, ts, rfl, hbefore, hd⟩
  · rw [internAll_of_names hts] at h
    obtain ⟨rfl, hnames⟩ := Prod.mk.inj h
    obtain rfl := Except.ok.inj hnames
    exact fun n hn => ⟨checkName_of_names hts n hn, mem_addAll.mpr (.inr hn)⟩
  · obtain ⟨f, hf⟩ := internDatum_of_not_names hd
    rw [internAll_of_not_names hbefore hf] at h
    cases (Prod.mk.inj h).2

/-- Where the atoms of several parts were given, they are atoms of the registry. -/
theorem has_of_internParts {ps : List Part} {names : List String} (h : r.internParts ps = (r', .ok names)) :
    r'.Has names := by
  induction ps generalizing r names with
  | nil =>
      obtain rfl := Except.ok.inj (Prod.mk.inj h).2
      exact fun n hn => nomatch hn
  | cons p ps ih =>
      rw [internParts] at h
      split at h
      case h_1 => cases (Prod.mk.inj h).2
      case h_2 r₁ t hp =>
        have hgrown := below_internParts r₁ ps
        generalize hps : r₁.internParts ps = given at h hgrown
        obtain ⟨r₂, f | rest⟩ := given
        · cases (Prod.mk.inj h).2
        · obtain ⟨rfl, hnames⟩ := Prod.mk.inj h
          obtain rfl := Except.ok.inj hnames
          obtain ⟨n, place, hn, -⟩ := internPart_eq_ok hp
          obtain ⟨hname, hmem, -⟩ := intern_eq_ok hn
          exact (ih hps).cons (checkName_kept hname) (hgrown.subset hmem)

/-- Where the atoms of a node were given, they are atoms of the registry, and that of its own name is one of them. -/
theorem has_of_internLabels {name : String} {labels : NodeLabels} {names : List String}
    (h : r.internLabels name labels = (r', .ok names)) :
    r'.Has names ∧ ∃ own ∈ names, checkName name = .ok own := by
  have hown {r₁ : Registry} {given : List String} (hgiven : r₁.Has given)
      (h : ((r₁.internPart (.plain (.text name))).1, (r₁.internPart (.plain (.text name))).2.map fun n => given ++ [n]) =
        (r', .ok names)) : r'.Has names ∧ ∃ own ∈ names, checkName name = .ok own := by
    have hgrown := below_internPart r₁ (.plain (.text name))
    generalize hlast : r₁.internPart (.plain (.text name)) = last at h hgrown
    obtain ⟨r₂, f | own⟩ := last
    · cases (Prod.mk.inj h).2
    · obtain ⟨rfl, hnames⟩ := Prod.mk.inj h
      obtain rfl := Except.ok.inj hnames
      obtain ⟨n, place, hn, hsame⟩ := internPart_eq_ok hlast
      obtain ⟨hname, hmem, -⟩ := intern_eq_ok hn
      refine ⟨fun l hl => ?_, own, List.mem_append_right _ (List.mem_singleton_self _), hsame name rfl ▸ hname⟩
      rcases List.mem_append.mp hl with hl | hl
      · exact (hgiven.below hgrown) l hl
      · rw [List.mem_singleton.mp hl]
        exact ⟨checkName_kept hname, hmem⟩
  unfold internLabels at h
  cases labels with
  | text s =>
      simp only at h
      generalize hfields : r.internFields (.text s) = given at h
      obtain ⟨r₁, f | ns⟩ := given
      · cases (Prod.mk.inj h).2
      · exact hown (has_of_internAll hfields) h
  | parts ps =>
      simp only at h
      generalize hparts : r.internParts ps = given at h
      obtain ⟨r₁, f | ns⟩ := given
      · cases (Prod.mk.inj h).2
      · exact hown (has_of_internParts hparts) h

end Registry

namespace Scheduler

variable {s t : Scheduler} {r : Request}

/-- The labels of nodes are names of atoms, and every node carries its own name. -/
def Labelled (s : Scheduler) : Prop :=
  ∀ m ∈ s.pool.nodes, s.pool.registry.Has m.labels ∧ ∃ own ∈ m.labels, Registry.checkName m.name = .ok own

namespace Labelled

/-- An operation may begin, as atoms are kept and a node that joins is given its own. -/
theorem opening (h : s.Labelled) (hs : s.WellFormed) (hst : s.Opening r t) : t.Labelled := by
  have hkept {m : Node} (hm : m ∈ s.pool.nodes) :
      t.pool.registry.Has m.labels ∧ ∃ own ∈ m.labels, Registry.checkName m.name = .ok own :=
    ⟨(h m hm).1.below hst.below, (h m hm).2⟩
  intro m hm
  cases hst.nodeOrigin hs hm with
  | kept hthere => exact hkept hthere
  | joined hr hatoms hregistry =>
      obtain ⟨hhas, own, hown, hname⟩ := Registry.has_of_internLabels hatoms
      rw [hregistry]
      exact ⟨fun l hl => hhas l (Text.mem_sortNames.mp hl), own, Text.mem_sortNames.mpr hown, hname⟩
  | turned hthere hr hfree => exact (hkept hthere :)
  | freed hthere hr hbuilding hnode hholds => exact (hkept hthere :)

/-- Matching gives nodes items, not labels. -/
theorem rounds {judges : Set Judge} (h : s.Labelled) (hs : s.WellFormed) (hst : Rounds judges s t) : t.Labelled := by
  have hsame {s t : Scheduler} (hpool : t.pool = s.pool) (hlabelled : s.Labelled) : t.Labelled := by
    rw [Labelled, hpool]
    exact hlabelled
  refine Rounds.preserve (fun halike => hsame halike.pool) ?_ (fun _ _ => hsame (pool_settle ..)) hs hst h
  intro s judge q n e _ _ hlabelled m hm
  obtain ⟨m₀, hm₀, rfl⟩ := Pool.mem_update.mp hm
  split <;> exact hlabelled m₀ hm₀

end Labelled

end Scheduler

/-- Every atom that a registry gives for a name is in the registry at the place that was given, and it can be named in
expressions exactly if its name can be written: it is then read from the name alone, and otherwise no text names it.
In every state of a run this goes for the labels of the nodes, and each node satisfies its labels. One of them is the
trimmed name of the node, and the whole name is read as this label exactly if the label can be written and there are
only separators around it. -/
theorem Config.run_pinned (moves : List Move) :
    let s := (run moves).state
    (∀ (r r' : Registry) (name t : String) (place : Nat), r.intern name = (r', .ok (place, t)) →
      r'.Naming t ∧ r'.find? t = some place) ∧
    ∀ n ∈ s.pool.nodes,
      (∀ l ∈ n.labels, s.pool.registry.Naming l ∧ ∀ g, n.meets (some (.atom l g)) = true) ∧
      ∃ own ∈ n.labels, Registry.checkName n.name = .ok own ∧
        ((∃ g, (s.pool.registry.parse n.name).2 = .ok (.atom own g)) ↔
          isAtomName own.toList = true ∧ ∀ c ∈ n.name.toList, Text.isBlank c = true → isSeparator c = true) := by
  intro s
  have hlabelled : s.Labelled :=
    run_preserve (fun _ hm => nomatch hm) (fun hs hst h => h.opening hs hst) (fun hs hst h => h.rounds hs hst) moves
  refine ⟨fun r r' name t place h => ?_, fun n hn => ?_⟩
  · obtain ⟨-, hmem, hplace⟩ := Registry.intern_eq_ok h
    exact ⟨Registry.naming_of_mem hmem, hplace⟩
  · obtain ⟨hhas, own, hown, hname⟩ := hlabelled n hn
    refine ⟨fun l hl => ⟨Registry.naming_of_mem (hhas l hl).2, fun g => ?_⟩, own, hown, hname, ?_, ?_⟩
    · exact List.contains_iff_mem.mpr hl
    · rintro ⟨g, hread⟩
      refine ⟨(parseLabel_regular hread).named own (List.mem_singleton_self _), fun c hc hblank => ?_⟩
      exact isSeparator_of_parseLabel hread hc hblank
    · rintro ⟨hwritten, hblanks⟩
      have hspaced := spaced_of_trim (Registry.checkName_eq_ok hname).1 hblanks
      exact ⟨false, congrArg Prod.snd (Registry.parse_of_mem (hhas own hown).2 hwritten hspaced)⟩

/-- The name of a node with separators around it is read as one of its labels, and so is the other label. -/
theorem Config.run_pinned_padded_name :
    let moves : List Move := [.ask .lenient (.openQueue []), .ask .lenient (.register " x-1\t" (.text "32bit"))]
    let s := (run moves).state
    ∃ n ∈ s.pool.nodes, n.labels = ["32bit", "x-1"] ∧
      s.pool.registry.parse "32bit" = (s.pool.registry, .ok (.atom "32bit" false)) ∧
      ∃ g, (s.pool.registry.parse " x-1\t").2 = .ok (.atom "x-1" g) := by
  intro moves s
  have hn : ⟨" x-1\t", ["32bit", "x-1"], .idle, none, 0⟩ ∈ s.pool.nodes := by decide
  have hown : Registry.checkName " x-1\t" = .ok "x-1" := by decide
  obtain ⟨hlabels, own, -, hname, hpinned⟩ := (run_pinned moves).2 _ hn
  obtain rfl : own = "x-1" := Except.ok.inj (hname.symm.trans hown)
  have hblanks : (" x-1\t".toList.all fun c => !Text.isBlank c || isSeparator c) = true := by decide
  refine ⟨_, hn, rfl, ?_, hpinned.mpr ⟨by decide, fun c hc hblank => ?_⟩⟩
  · exact (hlabels "32bit" (by decide)).1.read (by decide)
  · simpa [hblank] using List.all_eq_true.mp hblanks c hc

/-- A name with a sign in it is accepted, and the node carries it, but it is not read as an expression; another name is
read as a different formula, and one with a blank around it that is no separator is not read either. -/
theorem Config.run_pinned_unwritable :
    let moves : List Move := [.ask .lenient (.openQueue []), .ask .lenient (.register "c++" (.parts []))]
    let s := (run moves).state
    s.pool.nodes = [⟨"c++", ["c++"], .idle, none, 0⟩] ∧ s.pool.registry.find? "c++" = some 0 ∧
      (s.pool.registry.parse "c++").2 = .error (.illegal ⟨'+', 1⟩) ∧
      (run (moves ++ [.ask .lenient (.submit 0 (.plain (.text "c++")) "a" [])])).returned =
        some (.error (.label (.parse (.illegal ⟨'+', 1⟩)))) ∧
      Registry.checkName "a->b" = .ok "a->b" ∧
      parseLabel "a->b" = .ok (.binary .implies (.atom "a" false) (.atom "b" false) false) ∧
      Registry.checkName "\u00a0n" = .ok "n" ∧ parseLabel "\u00a0n" = .error (.illegal ⟨'\u00a0', 0⟩) := by
  intro moves s
  exact ⟨by decide, by decide, by decide, rfl, by decide, by decide, by decide, by decide +kernel⟩

end LabelScheduler
