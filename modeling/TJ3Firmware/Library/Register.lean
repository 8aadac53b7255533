import TJ3Firmware.Library.Memory

namespace Library.Register

open Library.Memory

variable {α : Type} {size : Nat}

-- Values that go to consecutive positions.
structure Write (α : Type) where
  start : Nat
  values : List α
  deriving Repr, DecidableEq

-- What the write puts at a position, if it covers it.
def Write.valueAt (write : Write α) (position : Nat) : Option α :=
  if write.start ≤ position then write.values[position - write.start]? else none

-- The value of the latest write that covers a position. The oldest one is first.
def latest (initial : α) (writes : List (Write α)) (position : Nat) : α :=
  ((writes.filterMap fun write => write.valueAt position).getLast?).getD initial

@[simp] theorem latest_nil (initial : α) (position : Nat) : latest initial [] position = initial := rfl

theorem latest_append_singleton (initial : α) (writes : List (Write α)) (write : Write α) (position : Nat) :
    latest initial (writes ++ [write]) position = (write.valueAt position).getD (latest initial writes position) := by
  rw [latest, List.filterMap_append, List.getLast?_append]
  cases hvalue : write.valueAt position with
  | none => simp [hvalue, latest]
  | some value => simp [hvalue]

-- The store is as these writes have left it.
def Holds (initial : α) (store : Store α size) (writes : List (Write α)) : Prop :=
  ∀ position, store.cells.getD position initial = latest initial writes position

theorem holds_fresh (initial : α) : Holds initial (Store.fresh size initial) [] := by
  intro position
  by_cases hposition : position < size
  · simp [Store.fresh, hposition]
  · simp [Store.fresh, hposition]

theorem valueAt_cons (value : α) (rest : List α) (start position : Nat) (hother : position ≠ start) :
    Write.valueAt ⟨start, value :: rest⟩ position = Write.valueAt ⟨start + 1, rest⟩ position := by
  unfold Write.valueAt
  simp only
  by_cases hstart : start ≤ position
  · obtain ⟨offset, rfl⟩ : ∃ offset, position = start + 1 + offset := ⟨position - (start + 1), by omega⟩
    have hfirst : start + 1 + offset - start = offset + 1 := by omega
    rw [if_pos hstart, if_pos (by omega), hfirst, List.getElem?_cons_succ, Nat.add_sub_cancel_left]
  · rw [if_neg hstart, if_neg (by omega)]

-- What memcpy leaves at a position.
theorem getD_copy (store : Store α size) (write : Write α) (hroom : write.start + write.values.length ≤ size)
    (initial : α) : ∃ store', store.copy write.start write.values = .ok store' ∧ ∀ position,
      store'.cells.getD position initial = (write.valueAt position).getD (store.cells.getD position initial) := by
  obtain ⟨start, values⟩ := write
  dsimp only at hroom ⊢
  induction values generalizing store start with
  | nil =>
      refine ⟨store, rfl, fun position => ?_⟩
      simp [Write.valueAt]
  | cons value rest ih =>
      rw [List.length_cons] at hroom
      have hfirst : start < store.cells.length := by
        rw [store.length_cells]
        omega
      rw [Store.copy, Store.write, if_pos (by omega), ok_bind]
      obtain ⟨store', hcopy, hcells⟩ := ih _ (start + 1) (by omega)
      refine ⟨store', hcopy, fun position => ?_⟩
      rw [hcells position]
      by_cases hhere : position = start
      · subst hhere
        simp [Write.valueAt, hfirst, List.getD_eq_getElem?_getD]
      · rw [valueAt_cons value rest start position hhere, List.getD_eq_getElem?_getD,
          List.getElem?_set_ne (Ne.symm hhere), ← List.getD_eq_getElem?_getD]

theorem Holds.copy {initial : α} {store : Store α size} {writes : List (Write α)} (h : Holds initial store writes)
    (write : Write α) (hroom : write.start + write.values.length ≤ size) :
    ∃ store', store.copy write.start write.values = .ok store' ∧ Holds initial store' (writes ++ [write]) := by
  obtain ⟨store', hcopy, hcells⟩ := getD_copy store write hroom initial
  refine ⟨store', hcopy, fun position => ?_⟩
  rw [hcells position, h position, latest_append_singleton]

-- What is read from an offset on, up to the end of the store.
theorem Holds.read {initial : α} {store : Store α size} {writes : List (Write α)} (h : Holds initial store writes)
    (offset count : Nat) : (store.cells.drop offset).take count =
      (List.range (min count (size - offset))).map fun index => latest initial writes (offset + index) := by
  have hsize := store.length_cells
  apply List.ext_getElem
  · rw [List.length_take, List.length_drop, List.length_map, List.length_range, hsize]
  · intro index hindex _
    rw [List.length_take, List.length_drop] at hindex
    rw [List.getElem_take, List.getElem_drop, List.getElem_map, List.getElem_range, ← h (offset + index),
      List.getD_eq_getElem _ _ (by omega)]

end Library.Register
