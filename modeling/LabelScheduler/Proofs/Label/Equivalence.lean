import LabelScheduler.Label.Recipe
import Mathlib.Data.List.Basic

/-!
# Equivalence of label expressions

Two expressions are compared by their truth tables over the atoms of both. A value depends only on what a set
says about the atoms of the expression, and a table has a row for every part of the names it is over, so equal
tables mean equal values for every set, whatever else is in it. Equivalence is therefore a congruence for all
ways of putting expressions together.
-/

namespace LabelScheduler

section Names

variable {n m : String} {names set : List String}

/-- Putting a name into a list adds it and nothing else. -/
theorem Text.mem_insertName : m ∈ insertName n names ↔ m = n ∨ m ∈ names := by
  induction names with
  | nil => exact List.mem_singleton.trans (or_iff_left List.not_mem_nil).symm
  | cons k ks ih =>
    unfold insertName
    split
    · exact List.mem_cons
    · split
      case isTrue h => subst h; simp
      case isFalse => simp only [List.mem_cons, ih, or_left_comm]

/-- Names in order are the names of the list. -/
@[simp] theorem Text.mem_sortNames : n ∈ sortNames names ↔ n ∈ names := by
  induction names with
  | nil => exact Iff.rfl
  | cons k ks ih => exact mem_insertName.trans ((or_congr_right ih).trans List.mem_cons.symm)

/-- The sets that a table has rows for are the sublists of its names. -/
theorem mem_assignments : set ∈ assignments names ↔ set.Sublist names := by
  induction names generalizing set with
  | nil => simp [assignments]
  | cons k ks ih =>
    simp only [assignments, List.mem_append, List.mem_map, ih, List.sublist_cons_iff]
    exact or_congr_right ⟨fun ⟨r, hr, hset⟩ => ⟨r, hset.symm, hr⟩, fun ⟨r, hset, hr⟩ => ⟨r, hr, hset.symm⟩⟩

end Names

namespace Label

variable {a b c d : Label} {has has' : String → Bool} {names : List String}

/-- The value of an expression depends only on what is said about its atoms. -/
theorem holds_congr (h : ∀ n ∈ a.atomNames, has n = has' n) : a.holds has = a.holds has' := by
  induction a with
  | atom n g => exact h n (List.mem_singleton_self n)
  | not b g ih => exact congrArg _ (ih h)
  | binary op l r g ihl ihr =>
    have hl := ihl fun n hn => h n (List.mem_append_left _ hn)
    have hr := ihr fun n hn => h n (List.mem_append_right _ hn)
    simp only [holds, hl, hr]

/-- Restricted to names that include the atoms of an expression, a set gives it the same value. -/
theorem holds_filter (h : ∀ n ∈ a.atomNames, n ∈ names) (has : String → Bool) :
    a.holds ((names.filter has).contains ·) = a.holds has :=
  holds_congr fun n hn => by simp [h n hn]

/-- Two tables over the same names are equal exactly if the expressions have the same value for every set of
these names. -/
theorem truthTable_inj :
    a.truthTable names = b.truthTable names ↔
      ∀ set : List String, set.Sublist (Text.sortNames names) → a.holds set.contains = b.holds set.contains := by
  unfold truthTable
  rw [List.map_inj_left]
  simp only [mem_assignments, Prod.mk.injEq, true_and]

/-- Expressions are equivalent exactly if they have the same value whatever is said about the atoms. -/
theorem equivalent_iff_holds : a.equivalent b = true ↔ ∀ has, a.holds has = b.holds has := by
  simp only [equivalent, beq_iff_eq, truthTable_inj]
  refine ⟨fun h has => ?_, fun h set _ => h set.contains⟩
  have hrow := h _ (List.filter_sublist (p := has))
  have ha : ∀ n ∈ a.atomNames, n ∈ Text.sortNames (a.atomNames ++ b.atomNames) := fun n hn => by simp [hn]
  have hb : ∀ n ∈ b.atomNames, n ∈ Text.sortNames (a.atomNames ++ b.atomNames) := fun n hn => by simp [hn]
  rwa [holds_filter ha, holds_filter hb] at hrow

/-- Expressions are equivalent exactly if the same sets of names satisfy them. -/
theorem equivalent_iff_satisfies :
    a.equivalent b = true ↔ ∀ set : List String, satisfies (some a) set = satisfies (some b) set := by
  refine equivalent_iff_holds.trans ⟨fun h set => h set.contains, fun h has => ?_⟩
  have ha : ∀ n ∈ a.atomNames, n ∈ a.atomNames ++ b.atomNames := fun n hn => List.mem_append_left _ hn
  have hb : ∀ n ∈ b.atomNames, n ∈ a.atomNames ++ b.atomNames := fun n hn => List.mem_append_right _ hn
  rw [← holds_filter ha has, ← holds_filter hb has]
  exact h _

/-- Marking an expression as grouped does not change its value. -/
@[simp] theorem holds_group (a : Label) (has : String → Bool) : a.group.holds has = a.holds has := by
  cases a <;> rfl

/-- Equivalence goes over to negations. -/
theorem equivalent_not (h : a.equivalent b = true) (g g' : Bool) :
    (Label.not a g).equivalent (.not b g') = true := by
  rw [equivalent_iff_holds] at h ⊢
  intro has
  simp only [holds, h has]

/-- Equivalence goes over to what stands under a connective. -/
theorem equivalent_binary (op : Connective) (hl : a.equivalent b = true) (hr : c.equivalent d = true)
    (g g' : Bool) : (Label.binary op a c g).equivalent (.binary op b d g') = true := by
  rw [equivalent_iff_holds] at hl hr ⊢
  intro has
  simp only [holds, hl has, hr has]

/-- Equivalence goes over to expressions in parentheses. -/
theorem equivalent_group (h : a.equivalent b = true) : a.group.equivalent b.group = true := by
  rw [equivalent_iff_holds] at h ⊢
  intro has
  rw [holds_group, holds_group, h has]

end Label

namespace Part

variable {p q : Part} {a b : Label}

/-- The two parts stand for expressions that are equivalent. -/
def Equivalent (p q : Part) : Prop :=
  ∃ a b, p.toLabel = .ok a ∧ q.toLabel = .ok b ∧ a.equivalent b = true

/-- A relation of the parts that stand for expressions is a congruence if it is an equivalence relation and goes
over from the operands to what every way of combining them gives. -/
structure Congruence (r : Part → Part → Prop) : Prop where
  refl : ∀ {p a}, p.toLabel = .ok a → r p p
  symm : ∀ {p q}, r p q → r q p
  trans : ∀ {p q s}, r p q → r q s → r p s
  /-- Related parts can be negated, and their negations are related. -/
  negate : ∀ {p q}, r p q → ∃ p' q', p.negate = .ok p' ∧ q.negate = .ok q' ∧ r p' q'
  /-- Related parts can be combined by every connective, and what this gives is related. -/
  combine : ∀ (op : Connective) {p q s t}, r p q → r s t →
    ∃ u v, Part.combine op p s = .ok u ∧ Part.combine op q t = .ok v ∧ r u v
  /-- The expressions of related parts are related in parentheses too. -/
  group : ∀ {p q a b}, r p q → p.toLabel = .ok a → q.toLabel = .ok b → r (.label a.group) (.label b.group)

/-- A part that stands for an expression can be negated. -/
theorem negate_of_toLabel (h : p.toLabel = .ok a) : p.negate = .ok (.label (.not a false)) := by
  cases p <;> cases h <;> rfl

/-- Two parts that stand for expressions can be combined. -/
theorem combine_of_toLabel (op : Connective) (hp : p.toLabel = .ok a) (hq : q.toLabel = .ok b) :
    combine op p q = .ok (.label (.binary op a b false)) := by
  unfold combine
  rw [hp, hq]

/-- Parts that stand for given expressions are equivalent exactly if the expressions are. -/
theorem equivalent_iff (hp : p.toLabel = .ok a) (hq : q.toLabel = .ok b) :
    p.Equivalent q ↔ a.equivalent b = true := by
  unfold Equivalent
  simp [hp, hq]

/-- Equivalence is a congruence. -/
theorem congruence_equivalent : Congruence Equivalent where
  refl hp := (equivalent_iff hp hp).mpr (Label.equivalent_iff_holds.mpr fun _ => rfl)
  symm := fun ⟨a, b, hp, hq, h⟩ =>
    ⟨b, a, hq, hp, Label.equivalent_iff_holds.mpr fun has => (Label.equivalent_iff_holds.mp h has).symm⟩
  trans := by
    rintro p q s ⟨a, b, hp, hq, h⟩ ⟨b', c, hq', hs, h'⟩
    obtain rfl : b = b' := Except.ok.inj (hq.symm.trans hq')
    rw [Label.equivalent_iff_holds] at h h'
    exact ⟨a, c, hp, hs, Label.equivalent_iff_holds.mpr fun has => (h has).trans (h' has)⟩
  negate := fun ⟨_, _, hp, hq, h⟩ =>
    ⟨_, _, negate_of_toLabel hp, negate_of_toLabel hq, _, _, rfl, rfl, Label.equivalent_not h _ _⟩
  combine := fun op _ _ _ _ ⟨_, _, hp, hq, h⟩ ⟨_, _, hs, ht, h'⟩ =>
    ⟨_, _, combine_of_toLabel op hp hs, combine_of_toLabel op hq ht, _, _, rfl, rfl,
      Label.equivalent_binary op h h' _ _⟩
  group h hp hq := ⟨_, _, rfl, rfl, Label.equivalent_group ((equivalent_iff hp hq).mp h)⟩

/-- Comparing the expressions of two parts, atoms or larger ones, says yes exactly if every set of names satisfies
both or neither, also sets with names that are in none of them; and the parts for which it says yes are related by
a congruence. -/
theorem equivalent_decides :
    (∀ {p q : Part} {a b : Label}, p.toLabel = .ok a → q.toLabel = .ok b →
      (a.equivalent b = true ↔ ∀ set : List String, satisfies (some a) set = satisfies (some b) set)) ∧
    Congruence Equivalent :=
  ⟨fun _ _ => Label.equivalent_iff_satisfies, congruence_equivalent⟩

/-- An atom and its conjunction with itself are satisfied by the same sets, and so are their negations. -/
theorem equivalent_decides_repeated_atom :
    let p : Part := .atom "x"
    let e : Label := .binary .and (.atom "x" false) (.atom "x" true) false
    (∀ set : List String, satisfies (some (.atom "x" false)) set = satisfies (some e) set) ∧
      ∃ p' q', p.negate = .ok p' ∧ (Part.label e).negate = .ok q' ∧ p'.Equivalent q' :=
  have h : (Label.atom "x" false).equivalent (.binary .and (.atom "x" false) (.atom "x" true) false) = true := by
    decide
  ⟨(equivalent_decides.1 (p := .atom "x") (q := .label _) rfl rfl).mp h,
    equivalent_decides.2.negate ⟨_, _, rfl, rfl, h⟩⟩

end Part

end LabelScheduler
