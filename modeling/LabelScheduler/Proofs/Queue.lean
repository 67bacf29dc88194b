import LabelScheduler.Queue
import Mathlib.Data.List.Nodup
import Mathlib.Data.List.Pairwise

/-!
# Queues whose lists agree with their items

Each operation of a queue writes to the items and to the lists of pending and building ones. A queue is
orderly when the two sides say the same: an item stands in a list exactly when its state says so. The
operations keep a queue orderly as long as they are applied to items in the right list.
-/

namespace LabelScheduler

namespace Queue

variable {q : Queue} {id : Nat} {e : Entrant}

/-- Numbers begin at one, so a number that has an item is positive. -/
theorem pos_of_get? (h : q.get? id = some e) : 0 < id := by
  cases id with
  | zero => cases h
  | succ id => exact id.succ_pos

/-- Looking an item up reads the items alone. -/
theorem get?_congr {r : Queue} (h : r.entrants = q.entrants) (id : Nat) : r.get? id = q.get? id := by
  cases id with
  | zero => rfl
  | succ id =>
      change r.entrants[id]? = q.entrants[id]?
      rw [h]

/-- Changing one item leaves the others as they are. -/
theorem get?_update (hid : 0 < id) (f : Entrant → Entrant) (j : Nat) :
    (q.update id f).get? j = if j = id then (q.get? j).map f else q.get? j := by
  obtain ⟨i, rfl⟩ : ∃ i, id = i + 1 := ⟨id - 1, by omega⟩
  cases j with
  | zero => rfl
  | succ j =>
      change (q.entrants.modify i f)[j]? = if j + 1 = i + 1 then q.entrants[j]?.map f else q.entrants[j]?
      rw [List.getElem?_modify]
      by_cases hij : i = j
      · simp [hij]
      · simp [hij, Ne.symm hij]

/-- The changed item is found under its own number. -/
theorem get?_update_self (h : q.get? id = some e) (f : Entrant → Entrant) :
    (q.update id f).get? id = some (f e) := by
  rw [get?_update (pos_of_get? h), if_pos rfl, h, Option.map_some]

/-- Every item after a change is an item from before it, changed if it has the number in question. -/
theorem get?_update_eq_some {f : Entrant → Entrant} (hid : 0 < id) {j : Nat} {e' : Entrant} :
    (q.update id f).get? j = some e' ↔
      ∃ e, q.get? j = some e ∧ e' = if j = id then f e else e := by
  rw [get?_update hid]
  by_cases hj : j = id
  · simp only [hj, if_true, Option.map_eq_some_iff, @eq_comm _ e']
  · simp [hj, eq_comm]

/-- What a change keeps of every item is kept of all items. -/
theorem get?_update_congr {γ : Type} {g : Entrant → γ} {f : Entrant → Entrant} (hf : ∀ e, g (f e) = g e)
    (id : Nat) {j : Nat} (h : q.get? j = some e) : ∃ e', (q.update id f).get? j = some e' ∧ g e' = g e := by
  cases j with
  | zero => cases h
  | succ j =>
      change q.entrants[j]? = some e at h
      change ∃ e', (q.entrants.modify (id - 1) f)[j]? = some e' ∧ g e' = g e
      rw [List.getElem?_modify, h]
      by_cases hij : id - 1 = j
      · exact ⟨f e, by simp [hij], hf e⟩
      · exact ⟨e, by simp [hij], rfl⟩

/-- What the changed item and the others have in common is had by all of them. -/
theorem forall_update {f : Entrant → Entrant} {P : Entrant → Prop} (hid : 0 < id)
    (hf : ∀ e, q.get? id = some e → P e → P (f e)) (h : ∀ e ∈ q.entrants, P e) :
    ∀ e ∈ (q.update id f).entrants, P e := by
  intro e' he'
  obtain ⟨i, hi⟩ := List.mem_iff_getElem?.mp he'
  obtain ⟨e, he, rfl⟩ := (get?_update_eq_some hid (j := i + 1)).mp hi
  have hold := h e (List.mem_of_getElem? he)
  split
  case isTrue heq => exact hf e (heq ▸ he) hold
  case isFalse => exact hold

/-- The next number is not in use. -/
theorem get?_nextId (q : Queue) : q.get? q.nextId = none :=
  List.getElem?_eq_none (Nat.le_refl _)

/-- A new item is found under the next number, and the others stay where they are. -/
theorem get?_add (item : Item) (j : Nat) :
    (q.add item).get? j = if j = q.nextId then some (.fresh item) else q.get? j := by
  cases j with
  | zero => rfl
  | succ j =>
      change (q.entrants ++ [Entrant.fresh item])[j]? =
        if j + 1 = q.entrants.length + 1 then some (.fresh item) else q.entrants[j]?
      rcases Nat.lt_trichotomy j q.entrants.length with hj | hj | hj
      · rw [List.getElem?_append_left hj, if_neg (by omega)]
      · simp [hj]
      · rw [if_neg (by omega), List.getElem?_eq_none (Nat.le_of_lt hj), List.getElem?_eq_none]
        simpa using Nat.succ_le_of_lt hj

/-- The lists of a queue agree with the states of its items. -/
structure Orderly (q : Queue) : Prop where
  /-- Items carry the numbers under which they are kept. -/
  numbered : ∀ {id e}, q.get? id = some e → e.item.id = id
  /-- An item is listed as pending exactly when its state is pending. -/
  pending_iff : ∀ {id e}, q.get? id = some e → (id ∈ q.pending ↔ e.state = .pending)
  /-- An item is listed as building exactly when it is assigned or running. -/
  building_iff : ∀ {id e}, q.get? id = some e → (id ∈ q.building ↔ e.state.isBuilding = true)
  /-- The lists name only items of the queue. -/
  known : ∀ {id}, id ∈ q.pending ∨ id ∈ q.building → ∃ e, q.get? id = some e
  /-- Pending items are listed in the order of their numbers. -/
  increasing : q.pending.Pairwise (· < ·)
  /-- No item is listed twice as building. -/
  distinct : q.building.Nodup

namespace Orderly

/-- A queue without items is orderly. -/
protected theorem empty : Queue.empty.Orderly := by
  have hnone : ∀ id, Queue.empty.get? id = none := by
    intro id
    cases id <;> rfl
  exact
    { numbered := fun h => by simp [hnone] at h
      pending_iff := fun h => by simp [hnone] at h
      building_iff := fun h => by simp [hnone] at h
      known := fun h => by simp [Queue.empty] at h
      increasing := .nil
      distinct := .nil }

/-- Only the items and the two lists matter. -/
theorem congr (h : q.Orderly) {r : Queue} (hentrants : r.entrants = q.entrants)
    (hpending : r.pending = q.pending) (hbuilding : r.building = q.building) : r.Orderly := by
  have hget := get?_congr hentrants
  exact
    { numbered := fun he => h.numbered (hget _ ▸ he)
      pending_iff := fun he => hpending ▸ h.pending_iff (hget _ ▸ he)
      building_iff := fun he => hbuilding ▸ h.building_iff (hget _ ▸ he)
      known := fun {id} hid => by
        rw [hpending, hbuilding] at hid
        obtain ⟨e, he⟩ := h.known hid
        exact ⟨e, (hget id).trans he⟩
      increasing := hpending ▸ h.increasing
      distinct := hbuilding ▸ h.distinct }

/-- An item cannot be in both lists. -/
theorem not_building_of_pending (h : q.Orderly) (hid : id ∈ q.pending) : id ∉ q.building := by
  intro hbuilding
  obtain ⟨e, he⟩ := h.known (.inl hid)
  have hstate := (h.pending_iff he).mp hid
  have hbusy := (h.building_iff he).mp hbuilding
  rw [hstate] at hbusy
  cases hbusy

/-- No item is listed twice as pending. -/
theorem pending_nodup (h : q.Orderly) : q.pending.Nodup :=
  h.increasing.imp Nat.ne_of_lt

/-- The pending items are the items in the pending list. -/
theorem mem_pendingEntrants (h : q.Orderly) :
    e ∈ q.pendingEntrants ↔ q.get? e.item.id = some e ∧ e.item.id ∈ q.pending := by
  constructor
  · intro he
    obtain ⟨id, hid, hget⟩ := List.mem_filterMap.mp he
    have hnumber := h.numbered hget
    exact ⟨hnumber ▸ hget, hnumber ▸ hid⟩
  · rintro ⟨hget, hid⟩
    exact List.mem_filterMap.mpr ⟨_, hid, hget⟩

/-- The pending items are listed in the order of their numbers. -/
theorem pendingEntrants_increasing (h : q.Orderly) :
    q.pendingEntrants.Pairwise fun e e' => e.item.id < e'.item.id := by
  refine List.pairwise_filterMap.mpr (h.increasing.imp fun {i j} hij e he e' he' => ?_)
  rw [h.numbered he, h.numbered he']
  exact hij

/-- The building items are the items in the building list. -/
theorem mem_buildingEntrants (h : q.Orderly) :
    e ∈ q.buildingEntrants ↔ q.get? e.item.id = some e ∧ e.item.id ∈ q.building := by
  constructor
  · intro he
    obtain ⟨id, hid, hget⟩ := List.mem_filterMap.mp he
    have hnumber := h.numbered hget
    exact ⟨hnumber ▸ hget, hnumber ▸ hid⟩
  · rintro ⟨hget, hid⟩
    exact List.mem_filterMap.mpr ⟨_, hid, hget⟩

/-- Moving one item between the lists while changing its state accordingly keeps the queue orderly. -/
theorem move (h : q.Orderly) {r : Queue} {f : Entrant → Entrant} (hentrants : r.entrants = q.entrants)
    (he : q.get? id = some e) (hitem : (f e).item = e.item)
    (hothers : ∀ j, j ≠ id → (j ∈ r.pending ↔ j ∈ q.pending) ∧ (j ∈ r.building ↔ j ∈ q.building))
    (hpending : id ∈ r.pending ↔ (f e).state = .pending)
    (hbuilding : id ∈ r.building ↔ (f e).state.isBuilding = true)
    (hincreasing : r.pending.Pairwise (· < ·)) (hdistinct : r.building.Nodup) :
    (r.update id f).Orderly := by
  have hget := get?_congr hentrants
  have hid := pos_of_get? he
  have hupdated {j : Nat} {e' : Entrant} (hj : (r.update id f).get? j = some e') :
      (j = id ∧ e' = f e) ∨ (j ≠ id ∧ q.get? j = some e') := by
    obtain ⟨e₀, he₀, rfl⟩ := (get?_update_eq_some hid).mp hj
    rw [hget] at he₀
    by_cases hji : j = id
    · subst hji
      have : e₀ = e := Option.some.inj (he₀.symm.trans he)
      exact .inl ⟨rfl, by rw [if_pos rfl, this]⟩
    · exact .inr ⟨hji, by rw [if_neg hji, he₀]⟩
  refine ⟨?_, ?_, ?_, ?_, hincreasing, hdistinct⟩
  · intro j e' hj
    rcases hupdated hj with ⟨rfl, rfl⟩ | ⟨_, hold⟩
    · rw [hitem, h.numbered he]
    · exact h.numbered hold
  · intro j e' hj
    rcases hupdated hj with ⟨rfl, rfl⟩ | ⟨hne, hold⟩
    · exact hpending
    · exact (hothers j hne).1.trans (h.pending_iff hold)
  · intro j e' hj
    rcases hupdated hj with ⟨rfl, rfl⟩ | ⟨hne, hold⟩
    · exact hbuilding
    · exact (hothers j hne).2.trans (h.building_iff hold)
  · intro j hj
    have hknown : ∃ e', q.get? j = some e' := by
      by_cases hji : j = id
      · exact ⟨e, hji ▸ he⟩
      · exact h.known (hj.imp (hothers j hji).1.mp (hothers j hji).2.mp)
    obtain ⟨e', he'⟩ := hknown
    exact ⟨_, (get?_update_eq_some hid).mpr ⟨e', (hget j).trans he', rfl⟩⟩

/-- A new item may enter at the end. -/
theorem add (h : q.Orderly) {item : Item} (hitem : item.id = q.nextId) : (q.add item).Orderly := by
  have hfresh : ∀ {id}, id ∈ q.pending ∨ id ∈ q.building → id < q.nextId := by
    intro id hid
    obtain ⟨e, he⟩ := h.known hid
    obtain ⟨i, rfl⟩ : ∃ i, id = i + 1 := ⟨id - 1, by have := pos_of_get? he; omega⟩
    have := (List.getElem?_eq_some_iff.mp he).1
    simpa [nextId] using this
  have hcases {j : Nat} {e' : Entrant} (hj : (q.add item).get? j = some e') :
      (j = q.nextId ∧ e' = .fresh item) ∨ (j ≠ q.nextId ∧ q.get? j = some e') := by
    rw [get?_add] at hj
    by_cases hjn : j = q.nextId
    · rw [if_pos hjn] at hj
      exact .inl ⟨hjn, (Option.some.inj hj).symm⟩
    · rw [if_neg hjn] at hj
      exact .inr ⟨hjn, hj⟩
  have hmem (j : Nat) : j ∈ (q.add item).pending ↔ j ∈ q.pending ∨ j = q.nextId := by
    simp [Queue.add, hitem]
  refine ⟨?_, ?_, ?_, ?_, ?_, h.distinct⟩
  · intro j e' hj
    rcases hcases hj with ⟨rfl, rfl⟩ | ⟨_, hold⟩
    · exact hitem
    · exact h.numbered hold
  · intro j e' hj
    rcases hcases hj with ⟨rfl, rfl⟩ | ⟨hne, hold⟩
    · simp [hmem, Entrant.fresh]
    · simpa [hmem, hne] using h.pending_iff hold
  · intro j e' hj
    rcases hcases hj with ⟨rfl, rfl⟩ | ⟨_, hold⟩
    · have : q.nextId ∉ q.building := fun hmem => Nat.lt_irrefl _ (hfresh (.inr hmem))
      simpa [Queue.add, Entrant.fresh, ItemState.isBuilding] using this
    · exact h.building_iff hold
  · intro j hj
    by_cases hjn : j = q.nextId
    · exact ⟨_, by rw [get?_add, if_pos hjn]⟩
    · have hold : j ∈ q.pending ∨ j ∈ q.building :=
        hj.imp_left fun hp => ((hmem j).mp hp).resolve_right hjn
      obtain ⟨e', he'⟩ := h.known hold
      exact ⟨e', by rw [get?_add, if_neg hjn, he']⟩
  · refine List.pairwise_append.mpr ⟨h.increasing, List.pairwise_singleton _ _, ?_⟩
    intro a ha b hb
    rw [List.mem_singleton.mp hb, hitem]
    exact hfresh (.inl ha)

/-- A pending item may be assigned. -/
theorem assign (h : q.Orderly) (hid : id ∈ q.pending) (a : Assignment) : (q.assign id a).Orderly := by
  obtain ⟨e, he⟩ := h.known (.inl hid)
  refine h.move rfl he rfl ?_ ?_ ?_ ?_ ?_
  · intro j hj
    simp [List.mem_erase_of_ne hj, hj]
  · simp [h.pending_nodup.mem_erase_iff]
  · simp [ItemState.isBuilding]
  · exact h.increasing.sublist List.erase_sublist
  · exact List.nodup_append.mpr ⟨h.distinct, List.nodup_singleton _, by
      intro a ha b hb
      rw [List.mem_singleton.mp hb]
      rintro rfl
      exact h.not_building_of_pending hid ha⟩

/-- A pending item may be cancelled. -/
theorem withdraw (h : q.Orderly) (hid : id ∈ q.pending) : (q.withdraw id).Orderly := by
  obtain ⟨e, he⟩ := h.known (.inl hid)
  refine h.move rfl he rfl ?_ ?_ ?_ ?_ h.distinct
  · intro j hj
    simp [List.mem_erase_of_ne hj]
  · simp [h.pending_nodup.mem_erase_iff]
  · simpa [ItemState.isBuilding] using h.not_building_of_pending hid
  · exact h.increasing.sublist List.erase_sublist

/-- A building item may begin to run. -/
theorem start (h : q.Orderly) (hid : id ∈ q.building) : (q.start id).Orderly := by
  obtain ⟨e, he⟩ := h.known (.inr hid)
  refine h.move rfl he rfl (fun j _ => ⟨Iff.rfl, Iff.rfl⟩) ?_ ?_ h.increasing h.distinct
  · have : id ∉ q.pending := fun hp => h.not_building_of_pending hp hid
    simpa using this
  · simpa [ItemState.isBuilding] using hid

/-- A building item may complete. -/
theorem complete (h : q.Orderly) (hid : id ∈ q.building) : (q.complete id).Orderly := by
  obtain ⟨e, he⟩ := h.known (.inr hid)
  refine h.move rfl he rfl ?_ ?_ ?_ h.increasing (h.distinct.erase _)
  · intro j hj
    simp [List.mem_erase_of_ne hj]
  · have : id ∉ q.pending := fun hp => h.not_building_of_pending hp hid
    simpa using this
  · simp [ItemState.isBuilding, h.distinct.mem_erase_iff]

/-- The promise and the watchers of an item may change. -/
theorem update (h : q.Orderly) (he : q.get? id = some e) {f : Entrant → Entrant}
    (hitem : (f e).item = e.item) (hstate : (f e).state = e.state) : (q.update id f).Orderly :=
  h.move rfl he hitem (fun _ _ => ⟨Iff.rfl, Iff.rfl⟩) (hstate ▸ h.pending_iff he)
    (hstate ▸ h.building_iff he) h.increasing h.distinct

end Orderly

end Queue

end LabelScheduler
