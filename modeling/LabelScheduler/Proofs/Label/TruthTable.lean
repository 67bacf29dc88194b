import LabelScheduler.Proofs.Label.Equivalence
import Mathlib.Algebra.Group.Nat.Defs
import Mathlib.Data.List.Nodup

/-!
# The rows of a truth table

A table is over the distinct names that it was given, in order, or over those that occur in the expression. Its rows
count in binary: the names are the digits, the first of them the most significant one, and a name is in the set of a row
if its digit is one. So every set of the names has one row, and no two rows have the same set.
-/

namespace LabelScheduler

section Names

variable {n m : String} {names : List String} {k k' : Nat}

/-- Names that increase strictly still do when a name was put among them. -/
theorem Text.pairwise_insertName (h : names.Pairwise (· < ·)) (n : String) :
    (insertName n names).Pairwise (· < ·) := by
  induction names with
  | nil => exact List.pairwise_singleton _ _
  | cons m ms ih =>
      obtain ⟨hm, hms⟩ := List.pairwise_cons.mp h
      unfold insertName
      split
      case isTrue hlt =>
        have hall : ∀ k ∈ m :: ms, n < k := List.forall_mem_cons.mpr ⟨hlt, fun k hk => String.lt_trans hlt (hm k hk)⟩
        exact List.pairwise_cons.mpr ⟨hall, h⟩
      case isFalse hnot =>
        split
        case isTrue => exact h
        case isFalse hne =>
          have hgt : m < n := by
            rcases String.le_total m n with hle | hle
            · exact String.not_le.mp fun hge => hne (String.le_antisymm hge hle)
            · exact absurd (String.not_le.mp fun hge => hne (String.le_antisymm hle hge)) hnot
          refine List.pairwise_cons.mpr ⟨fun k hk => ?_, ih hms⟩
          rcases Text.mem_insertName.mp hk with rfl | hk
          · exact hgt
          · exact hm k hk

/-- Names in order increase strictly. -/
theorem Text.pairwise_sortNames (names : List String) : (sortNames names).Pairwise (· < ·) := by
  induction names with
  | nil => exact .nil
  | cons n names ih => exact Text.pairwise_insertName ih n

/-- The names whose binary digit in `k` is one; the first name has the most significant digit. -/
def picked : List String → Nat → List String
  | [], _ => []
  | n :: ns, k => if k.testBit ns.length then n :: picked ns k else picked ns k

/-- A name is picked if the digit at its place is one, where places count from the last name. -/
theorem mem_picked :
    n ∈ picked names k ↔ ∃ i, names[i]? = some n ∧ k.testBit (names.length - 1 - i) = true := by
  induction names with
  | nil => simp [picked]
  | cons m ms ih =>
      have hlater (i : Nat) : (m :: ms).length - 1 - (i + 1) = ms.length - 1 - i := by
        rw [List.length_cons]
        omega
      have hsplit : (∃ i, (m :: ms)[i]? = some n ∧ k.testBit ((m :: ms).length - 1 - i) = true) ↔
          m = n ∧ k.testBit ms.length = true ∨ n ∈ picked ms k := by
        rw [← Nat.or_exists_add_one, ih]
        simp only [hlater]
        simp
      rw [hsplit, picked]
      split
      case isTrue hbit => simp [hbit, eq_comm]
      case isFalse hbit => simp [hbit]

/-- Only as many digits count as there are names. -/
theorem picked_congr (h : ∀ i < names.length, k.testBit i = k'.testBit i) : picked names k = picked names k' := by
  induction names with
  | nil => rfl
  | cons n ns ih =>
      have hlast : k.testBit ns.length = k'.testBit ns.length := h _ (Nat.lt_succ_self _)
      rw [picked, picked, hlast, ih fun i hi => h i (Nat.lt_succ_of_lt hi)]

/-- The sets that a table has rows for are picked by the numbers from zero on, in order. -/
theorem assignments_eq_map_picked (names : List String) :
    assignments names = (List.range (2 ^ names.length)).map (picked names) := by
  induction names with
  | nil => rfl
  | cons n ns ih =>
      rw [assignments, List.length_cons, Nat.pow_succ, Nat.mul_two, List.range_add, List.map_append, List.map_map, ih,
        List.map_map]
      congr 1
      · refine List.map_congr_left fun k hk => ?_
        rw [picked, Nat.testBit_lt_two_pow (List.mem_range.mp hk), if_neg Bool.false_ne_true]
      · refine List.map_congr_left fun k hk => ?_
        have hlower : picked ns (2 ^ ns.length + k) = picked ns k :=
          picked_congr fun i hi => Nat.testBit_two_pow_add_gt hi k
        simp only [Function.comp_apply, picked, Nat.testBit_two_pow_add_eq,
          Nat.testBit_lt_two_pow (List.mem_range.mp hk), Bool.not_false, if_true, hlower]

/-- Two numbers that pick the same of different names are the same. -/
theorem eq_of_picked (hnames : names.Nodup) (hk : k < 2 ^ names.length) (hk' : k' < 2 ^ names.length)
    (h : ∀ n, n ∈ picked names k ↔ n ∈ picked names k') : k = k' := by
  refine Nat.eq_of_testBit_eq fun j => ?_
  by_cases hj : j < names.length
  · have hi : names.length - 1 - j < names.length := by omega
    have hplace : names.length - 1 - (names.length - 1 - j) = j := by omega
    have hbit (k : Nat) : names[names.length - 1 - j] ∈ picked names k ↔ k.testBit j = true := by
      rw [mem_picked]
      constructor
      · rintro ⟨i, hi', hbit⟩
        obtain ⟨hlt, hsame⟩ := List.getElem?_eq_some_iff.mp hi'
        obtain rfl := (List.Nodup.getElem_inj_iff hnames).mp hsame
        rwa [hplace] at hbit
      · exact fun hbit => ⟨_, List.getElem?_eq_getElem hi, hplace.symm ▸ hbit⟩
    rw [Bool.eq_iff_iff, ← hbit k, ← hbit k', h]
  · have hlarge : 2 ^ names.length ≤ 2 ^ j := Nat.pow_le_pow_right (by decide) (Nat.le_of_not_lt hj)
    rw [Nat.testBit_lt_two_pow (Nat.lt_of_lt_of_le hk hlarge), Nat.testBit_lt_two_pow (Nat.lt_of_lt_of_le hk' hlarge)]

end Names

namespace Label

variable {e : Label} {n : String}

/-- The names of the atoms of an expression are those of the atoms among its parts. -/
theorem mem_atomNames : n ∈ e.atomNames ↔ ∃ g, .atom n g ∈ e.walk := by
  induction e with
  | atom m g => simp [atomNames, walk, eq_comm]
  | not b g ih => simp [atomNames, walk, ih]
  | binary op l r g ihl ihr => simp [atomNames, walk, ihl, ihr, exists_or]

/-- A table is over the distinct names that were given, in order, or over the names of the atoms in the expression if
none were given. It has one row for each set of them, and its rows count in binary, the first name being the most
significant digit: row `k` has the set of the names whose digit in `k` is one, and says whether this set satisfies the
expression. -/
theorem truthTable_enumerates (e : Label) (chosen : Option (List String)) :
    let names := Text.sortNames (chosen.getD e.atomNames)
    let table := e.truthTable (chosen.getD e.atomNames)
    (names.Pairwise (· < ·) ∧ (∀ given n, chosen = some given → (n ∈ names ↔ n ∈ given)) ∧
      (chosen = none → ∀ n, n ∈ names ↔ ∃ g, .atom n g ∈ e.walk)) ∧
    table.length = 2 ^ names.length ∧
    table.Pairwise (fun row row' => ∃ n, ¬ (n ∈ row.1 ↔ n ∈ row'.1)) ∧
    ∀ k < 2 ^ names.length, ∃ set, table[k]? = some (set, satisfies (some e) set) ∧
      ∀ n, n ∈ set ↔ ∃ i, names[i]? = some n ∧ k.testBit (names.length - 1 - i) = true := by
  intro names table
  have hincreasing : names.Pairwise (· < ·) := Text.pairwise_sortNames _
  have hdistinct : names.Nodup := hincreasing.imp fun hlt => String.ne_of_lt hlt
  have htable : table = (List.range (2 ^ names.length)).map fun k =>
      (picked names k, satisfies (some e) (picked names k)) := by
    have hrows : table = (assignments names).map fun set => (set, satisfies (some e) set) := rfl
    rw [hrows, assignments_eq_map_picked, List.map_map]
    rfl
  refine ⟨⟨hincreasing, ?_, ?_⟩, ?_, ?_, fun k hk => ⟨picked names k, ?_, fun n => mem_picked⟩⟩
  · rintro given n rfl
    exact Text.mem_sortNames
  · rintro rfl n
    exact Text.mem_sortNames.trans mem_atomNames
  · rw [htable, List.length_map, List.length_range]
  · rw [htable, List.pairwise_map]
    refine List.pairwise_lt_range.imp_of_mem fun {k k'} hk hk' hlt => ?_
    refine not_forall.mp fun hsame => Nat.ne_of_lt hlt ?_
    exact eq_of_picked hdistinct (List.mem_range.mp hk) (List.mem_range.mp hk') hsame
  · rw [htable, List.getElem?_map, List.getElem?_range hk]
    rfl

/-- The rows for two names of which only the second is in the expression, in the order of the rows. -/
example : (Label.not (.atom "y" false) false).truthTable ["y", "x", "y"] =
    [([], true), (["y"], false), (["x"], true), (["x", "y"], false)] := by
  decide

end Label

end LabelScheduler
