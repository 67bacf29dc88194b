import LabelScheduler.Pool
import Mathlib.Data.List.Nodup
import Mathlib.Data.List.Pairwise
import Mathlib.Data.List.Perm.Subperm

/-!
# Pools whose nodes can be told apart

The nodes of a pool differ in their names and in the numbers of their registrations, and a node that can
take an item holds none. Every operation of a pool keeps it so, provided that a name is given only once
and that a node which holds an item is not set idle.
-/

namespace LabelScheduler

/-- What a node is, whatever it does: its name and its atoms. -/
def Node.described (n : Node) : String × List String := (n.name, n.labels)

namespace Pool

variable {p : Pool} {n : Node} {name : String}

/-- The nodes of a pool are told apart by name and by registration, and idle nodes hold nothing. -/
structure Orderly (p : Pool) : Prop where
  named : (p.nodes.map Node.name).Nodup
  numbered : (p.nodes.map Node.serial).Pairwise (· < ·)
  enrolled : ∀ n ∈ p.nodes, n.serial < p.enrolled
  idle_free : ∀ n ∈ p.nodes, n.state = .idle → n.holds = none

/-- The nodes after a change are the nodes from before it, changed if they have the name in question. -/
theorem mem_update {f : Node → Node} :
    n ∈ (p.update name f).nodes ↔ ∃ m ∈ p.nodes, (if m.name = name then f m else m) = n :=
  List.mem_map

/-- What a change leaves as it is of every node, it leaves of all of them. -/
theorem map_update {γ : Type} (g : Node → γ) (p : Pool) (name : String) {f : Node → Node}
    (hf : ∀ n, g (f n) = g n) : (p.update name f).nodes.map g = p.nodes.map g := by
  rw [update, List.map_map]
  refine List.map_congr_left fun n _ => ?_
  by_cases hn : n.name = name
  · simp only [Function.comp_apply, if_pos hn, hf]
  · simp only [Function.comp_apply, if_neg hn]

/-- Whether some node satisfies a label depends on the descriptions of the nodes. -/
theorem forall_not_meets_congr {r : Pool} (h : p.nodes.map Node.described = r.nodes.map Node.described)
    (label : Option Label) : (∀ n ∈ p.nodes, n.meets label = false) ↔ ∀ n ∈ r.nodes, n.meets label = false := by
  have hdescribed (nodes : List Node) : (∀ n ∈ nodes, n.meets label = false) ↔
      ∀ d ∈ nodes.map Node.described, satisfies label d.2 = false := by
    rw [List.forall_mem_map]
    rfl
  rw [hdescribed, hdescribed, h]

/-- A node that is found by its name is one of the pool. -/
theorem mem_of_find? (h : p.find? name = some n) : n ∈ p.nodes ∧ n.name = name :=
  ⟨List.mem_of_find?_eq_some h, by simpa using List.find?_some h⟩

/-- A name that no node has is not found. -/
theorem find?_eq_none_iff : p.find? name = none ↔ ∀ n ∈ p.nodes, n.name ≠ name := by
  simp [find?]

/-- Freeing a node tells nobody else than before. -/
theorem release_subscribers (p : Pool) (name : String) (item : Nat) :
    (p.release name item).subscribers = p.subscribers := by
  unfold release
  split <;> rfl

/-- Freeing a node registers none. -/
theorem release_enrolled (p : Pool) (name : String) (item : Nat) : (p.release name item).enrolled = p.enrolled := by
  unfold release
  split <;> rfl

/-- Freeing a node makes no atoms. -/
theorem release_registry (p : Pool) (name : String) (item : Nat) : (p.release name item).registry = p.registry := by
  unfold release
  split <;> rfl

namespace Orderly

/-- A pool without nodes is orderly. -/
protected theorem empty : Pool.empty.Orderly :=
  ⟨.nil, .nil, fun _ h => absurd h List.not_mem_nil, fun _ h => absurd h List.not_mem_nil⟩

/-- Only the nodes and the count of registrations matter. -/
theorem congr (h : p.Orderly) {r : Pool} (hnodes : r.nodes = p.nodes) (henrolled : r.enrolled = p.enrolled) :
    r.Orderly :=
  ⟨hnodes ▸ h.named, hnodes ▸ h.numbered, hnodes ▸ henrolled ▸ h.enrolled, hnodes ▸ h.idle_free⟩

/-- Two nodes of one name are the same node. -/
theorem eq_of_name (h : p.Orderly) {m : Node} (hm : m ∈ p.nodes) (hn : n ∈ p.nodes)
    (hname : m.name = n.name) : m = n :=
  List.inj_on_of_nodup_map h.named hm hn hname

/-- No two nodes have the same number. -/
theorem distinct (h : p.Orderly) : (p.nodes.map Node.serial).Nodup := h.numbered.imp Nat.ne_of_lt

/-- Two nodes of one number are the same node. -/
theorem eq_of_serial (h : p.Orderly) {m : Node} (hm : m ∈ p.nodes) (hn : n ∈ p.nodes)
    (hserial : m.serial = n.serial) : m = n :=
  List.inj_on_of_nodup_map h.distinct hm hn hserial

/-- Every node of the pool is found by its name. -/
theorem find?_of_mem (h : p.Orderly) (hn : n ∈ p.nodes) : p.find? n.name = some n := by
  cases hfind : p.find? n.name with
  | none => exact absurd rfl (find?_eq_none_iff.mp hfind n hn)
  | some m =>
      obtain ⟨hm, hname⟩ := mem_of_find? hfind
      rw [h.eq_of_name hm hn hname]

/-- A node of a new name may be registered. -/
theorem add (h : p.Orderly) (hname : p.find? name = none) (labels : List String) :
    (p.add name labels).Orderly := by
  have hnew := find?_eq_none_iff.mp hname
  refine ⟨?_, ?_, ?_, ?_⟩
  · rw [Pool.add, List.map_append]
    refine List.nodup_append.mpr ⟨h.named, List.nodup_singleton _, ?_⟩
    intro a ha b hb
    obtain ⟨m, hm, rfl⟩ := List.mem_map.mp ha
    rw [List.mem_singleton.mp hb]
    exact hnew m hm
  · rw [Pool.add, List.map_append]
    refine List.pairwise_append.mpr ⟨h.numbered, List.pairwise_singleton _ _, ?_⟩
    intro a ha b hb
    obtain ⟨m, hm, rfl⟩ := List.mem_map.mp ha
    rw [List.mem_singleton.mp hb]
    exact h.enrolled m hm
  · intro n hn
    rcases List.mem_append.mp hn with hold | hnew
    · exact Nat.lt_succ_of_lt (h.enrolled n hold)
    · rw [List.mem_singleton.mp hnew]
      exact Nat.lt_succ_self _
  · intro n hn hidle
    rcases List.mem_append.mp hn with hold | hnew
    · exact h.idle_free n hold hidle
    · rw [List.mem_singleton.mp hnew]
      rfl

/-- Any node may be removed. -/
theorem drop (h : p.Orderly) (name : String) : (p.drop name).Orderly where
  named := h.named.sublist (List.filter_sublist.map _)
  numbered := h.numbered.sublist (List.filter_sublist.map _)
  enrolled n hn := h.enrolled n (List.mem_filter.mp hn).1
  idle_free n hn := h.idle_free n (List.mem_filter.mp hn).1

/-- The nodes of one name may be changed in what they do and hold, as long as none of them is then both
idle and holding an item. -/
theorem update (h : p.Orderly) {f : Node → Node} (hname : ∀ n, (f n).name = n.name)
    (hserial : ∀ n, (f n).serial = n.serial)
    (hfree : ∀ n ∈ p.nodes, n.name = name → (f n).state = .idle → (f n).holds = none) :
    (p.update name f).Orderly := by
  refine ⟨?_, ?_, ?_, ?_⟩
  · exact map_update Node.name p name hname ▸ h.named
  · exact map_update Node.serial p name hserial ▸ h.numbered
  · intro n hn
    obtain ⟨m, hm, rfl⟩ := mem_update.mp hn
    have hsame : (if m.name = name then f m else m).serial = m.serial := by
      split
      · exact hserial m
      · rfl
    rw [hsame]
    exact h.enrolled m hm
  · intro n hn hidle
    obtain ⟨m, hm, rfl⟩ := mem_update.mp hn
    by_cases hmn : m.name = name
    · rw [if_pos hmn] at hidle ⊢
      exact hfree m hm hmn hidle
    · rw [if_neg hmn] at hidle ⊢
      exact h.idle_free m hm hidle

/-- A node may be given an item. -/
theorem occupy (h : p.Orderly) (name : String) (item : Nat) : (p.occupy name item).Orderly :=
  h.update (fun _ => rfl) (fun _ => rfl) fun _ _ _ hidle => nomatch hidle

/-- A node that holds the item may be freed. -/
theorem release (h : p.Orderly) (name : String) (item : Nat) : (p.release name item).Orderly := by
  unfold Pool.release
  split
  · exact h.update (fun _ => rfl) (fun _ => rfl) fun _ _ _ _ => rfl
  · exact h

/-- Freeing a node frees it if it holds the item, and leaves the other nodes as they are. -/
theorem nodes_release (h : p.Orderly) (name : String) (item : Nat) :
    (p.release name item).nodes = p.nodes.map fun n =>
      if n.name = name ∧ n.holds = some item then { n with state := .idle, holds := none } else n := by
  unfold Pool.release
  split
  case isTrue hholding =>
    refine List.map_congr_left fun n hn => ?_
    by_cases hname : n.name = name
    · have hholds : n.holds = some item := by
        rw [isHolding, ← hname, h.find?_of_mem hn, Option.bind_some] at hholding
        exact beq_iff_eq.mp hholding
      rw [if_pos hname, if_pos ⟨hname, hholds⟩]
    · rw [if_neg hname, if_neg fun hboth => hname hboth.1]
  case isFalse hnot =>
    refine (List.map_id p.nodes).symm.trans (List.map_congr_left fun n hn => ?_)
    rw [id_eq, if_neg]
    rintro ⟨rfl, hholds⟩
    exact hnot (by rw [isHolding, h.find?_of_mem hn, Option.bind_some, hholds, beq_self_eq_true])

/-- A node that holds an item after a node was freed held it before, and is not the node of that name with the
item in question. -/
theorem mem_release (h : p.Orderly) {item i : Nat} (hn : n ∈ (p.release name item).nodes)
    (hi : n.holds = some i) : n ∈ p.nodes ∧ (n.name = name → i ≠ item) := by
  rw [h.nodes_release] at hn
  obtain ⟨m, hm, rfl⟩ := List.mem_map.mp hn
  by_cases hfreed : m.name = name ∧ m.holds = some item
  · rw [if_pos hfreed] at hi
    cases hi
  · rw [if_neg hfreed] at hi ⊢
    exact ⟨hm, fun hname hsame => hfreed ⟨hname, hsame ▸ hi⟩⟩

end Orderly

/-- The node of a registration has the number of the registration, if there is no such node also the one that is
given instead. -/
theorem registered?_getD_serial (p : Pool) (n : Node) : ((p.registered? n.serial).getD n).serial = n.serial := by
  cases hfind : p.registered? n.serial with
  | none => rfl
  | some m =>
      have hserial := List.find?_some hfind
      exact beq_iff_eq.mp hserial

/-- The names and the numbers under which nodes are registered. -/
def registrations (p : Pool) : List (String × Nat) := p.nodes.map fun n => (n.name, n.serial)

/-- A registered node is found among the registrations. -/
theorem mem_registrations {r : String × Nat} :
    r ∈ p.registrations ↔ ∃ n ∈ p.nodes, n.name = r.1 ∧ n.serial = r.2 := by
  simp only [registrations, List.mem_map, Prod.ext_iff]

/-- Removing a node removes the registrations of its name. -/
theorem registrations_drop (p : Pool) (name : String) :
    (p.drop name).registrations = p.registrations.filter (·.1 != name) := by
  rw [registrations, registrations, List.filter_map]
  rfl

/-- Nothing that a node does changes the registrations. -/
theorem registrations_update (p : Pool) (name : String) {f : Node → Node} (hname : ∀ n, (f n).name = n.name)
    (hserial : ∀ n, (f n).serial = n.serial) : (p.update name f).registrations = p.registrations :=
  map_update _ p name fun n => by rw [hname, hserial]

/-- Freeing a node changes no registrations. -/
theorem registrations_release (p : Pool) (name : String) (item : Nat) :
    (p.release name item).registrations = p.registrations := by
  unfold release
  split
  · exact registrations_update p name (fun _ => rfl) fun _ => rfl
  · rfl

/-- There are not more nodes than have been registered. -/
theorem Orderly.length_le (h : p.Orderly) : p.nodes.length ≤ p.enrolled := by
  have hbelow : p.nodes.map Node.serial ⊆ List.range p.enrolled := by
    intro i hi
    obtain ⟨n, hn, rfl⟩ := List.mem_map.mp hi
    exact List.mem_range.mpr (h.enrolled n hn)
  simpa using (List.subperm_of_subset h.distinct hbelow).length_le

end Pool

end LabelScheduler
