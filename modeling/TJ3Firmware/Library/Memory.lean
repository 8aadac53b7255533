import Mathlib

namespace Library.Memory

-- An access outside an object stops the computation.
inductive Fault
  | read (index : Nat)
  | write (index : Nat)
  deriving Repr, DecidableEq

variable {α β : Type}

theorem bind_eq_ok {ε : Type} (first : Except ε α) (next : α → Except ε β) (result : β) :
    first >>= next = .ok result ↔ ∃ value, first = .ok value ∧ next value = .ok result := by
  cases first <;> simp [bind, Except.bind]

@[simp] theorem ok_bind {ε : Type} (value : α) (next : α → Except ε β) :
    (Except.ok value : Except ε α) >>= next = next value := rfl

-- A pointer is an object together with the distance from its first cell.
structure Ptr (α : Type) where
  cells : List α
  offset : Nat
  deriving Repr, DecidableEq

def Ptr.read (pointer : Ptr α) (index : Nat) : Except Fault α :=
  match pointer.cells[pointer.offset + index]? with
  | some value => .ok value
  | none => .error (.read (pointer.offset + index))

def Ptr.readRange (pointer : Ptr α) (count : Nat) : Except Fault (List α) :=
  if pointer.offset + count ≤ pointer.cells.length then
    .ok ((pointer.cells.drop pointer.offset).take count)
  else .error (.read pointer.cells.length)

theorem Ptr.read_eq_getD (cells : List α) (offset index : Nat) (default : α)
    (h : offset + index < cells.length) :
    Ptr.read ⟨cells, offset⟩ index = .ok (cells.getD (offset + index) default) := by
  simp [Ptr.read, h, List.getD_eq_getElem?_getD]

theorem Ptr.readRange_eq (cells : List α) (offset count : Nat) (h : offset + count ≤ cells.length) :
    Ptr.readRange ⟨cells, offset⟩ count = .ok ((cells.drop offset).take count) := if_pos h

theorem Ptr.readRange_length (pointer : Ptr α) (count : Nat) (values : List α)
    (h : pointer.readRange count = .ok values) : values.length = count := by
  unfold readRange at h
  split at h
  · cases h
    simp only [List.length_take, List.length_drop]
    omega
  · cases h

theorem Ptr.read_of_readRange (pointer : Ptr α) (count : Nat) (values : List α)
    (h : pointer.readRange count = .ok values) (index : Nat) (hindex : index < count) :
    ∃ value, pointer.read index = .ok value := by
  unfold readRange at h
  split at h
  · have hinside : pointer.offset + index < pointer.cells.length := by omega
    exact ⟨pointer.cells[pointer.offset + index], by simp [Ptr.read, hinside]⟩
  · cases h

-- An object of a fixed size, with the indices stored to so far, oldest first.
@[ext] structure Store (α : Type) (size : Nat) where
  cells : List α
  length_cells : cells.length = size
  written : List Nat
  deriving Repr

variable {size : Nat}

namespace Store

def fresh (size : Nat) (value : α) : Store α size where
  cells := List.replicate size value
  length_cells := List.length_replicate
  written := []

def write (store : Store α size) (index : Nat) (value : α) : Except Fault (Store α size) :=
  if index < size then
    .ok { cells := store.cells.set index value
          length_cells := by simp [store.length_cells]
          written := store.written ++ [index] }
  else .error (.write index)

-- memcpy: the values go to consecutive cells from the index on.
def copy (store : Store α size) (index : Nat) : List α → Except Fault (Store α size)
  | [] => .ok store
  | value :: rest => do
      let store ← store.write index value
      store.copy (index + 1) rest

-- The object after its first cells were stored to in order.
def filled (store : Store α size) (values : List α) (h : values.length ≤ size) : Store α size where
  cells := values ++ store.cells.drop values.length
  length_cells := by
    rw [List.length_append, List.length_drop, store.length_cells]
    omega
  written := store.written ++ List.range values.length

@[simp] theorem filled_nil (store : Store α size) : store.filled [] (Nat.zero_le _) = store := by
  ext <;> simp [filled]

@[simp] theorem written_filled (store : Store α size) (values : List α) (h : values.length ≤ size) :
    (store.filled values h).written = store.written ++ List.range values.length := rfl

theorem write_filled (store : Store α size) (values : List α) (h : values.length ≤ size)
    (index : Nat) (hindex : index = values.length) (hlt : index < size) (value : α) :
    (store.filled values h).write index value =
      .ok (store.filled (values ++ [value]) (by simp; omega)) := by
  subst index
  have hcell : (store.cells.drop values.length).set 0 value =
      value :: store.cells.drop (values.length + 1) := by
    rw [List.drop_eq_getElem_cons (by rw [store.length_cells]; exact hlt), List.set_cons_zero]
  rw [write, if_pos hlt]
  congr 1
  ext1
  · simp only [filled, List.set_append_right _ _ (Nat.le_refl values.length), Nat.sub_self, hcell,
      List.append_assoc, List.singleton_append, List.length_append, List.length_singleton]
  · simp [filled, List.range_succ]

theorem copy_filled (store : Store α size) (values more : List α) (h : values.length ≤ size)
    (index : Nat) (hindex : index = values.length) (hle : index + more.length ≤ size) :
    (store.filled values h).copy index more =
      .ok (store.filled (values ++ more) (by simp; omega)) := by
  induction more generalizing values index with
  | nil => simp [copy]
  | cons value rest ih =>
      have hlt : index < size := by
        simp only [List.length_cons] at hle
        omega
      rw [copy, write_filled store values h index hindex hlt, ok_bind,
        ih (values ++ [value]) _ (index + 1) (by simp [hindex]) (by simp only [List.length_cons] at hle; omega)]
      simp

-- The cells before and after those copied to are kept.
theorem copy_eq (store : Store α size) (index : Nat) (values : List α) (h : index + values.length ≤ size) :
    ∃ store', store.copy index values = .ok store' ∧
      store'.cells = store.cells.take index ++ values ++ store.cells.drop (index + values.length) := by
  induction values generalizing store index with
  | nil => exact ⟨store, rfl, by simp⟩
  | cons value rest ih =>
      rw [List.length_cons] at h
      have hindex : index < store.cells.length := by
        rw [store.length_cells]
        omega
      rw [copy, write, if_pos (by omega), ok_bind]
      obtain ⟨store', hcopy, hcells⟩ := ih _ (index + 1) (by omega)
      refine ⟨store', hcopy, hcells.trans ?_⟩
      have hfront : (store.cells.set index value).take (index + 1) = store.cells.take index ++ [value] := by
        rw [List.set_eq_take_append_cons_drop, if_pos hindex, List.take_append]
        simp [Nat.min_eq_left (Nat.le_of_lt hindex)]
      have hback : (store.cells.set index value).drop (index + 1 + rest.length) =
          store.cells.drop (index + (rest.length + 1)) := by
        rw [List.drop_set_of_lt (by omega)]
        congr 1
        omega
      simp only [hfront, hback, List.length_cons, List.append_assoc, List.singleton_append]

theorem readRange_filled (store : Store α size) (values : List α) (h : values.length ≤ size)
    (offset count : Nat) (hle : offset + count ≤ values.length) :
    Ptr.readRange ⟨(store.filled values h).cells, offset⟩ count = .ok ((values.drop offset).take count) := by
  have hsize := (store.filled values h).length_cells
  rw [Ptr.readRange_eq _ _ _ (by omega)]
  simp only [filled]
  rw [List.drop_append_of_le_length (by omega),
    List.take_append_of_le_length (by rw [List.length_drop]; omega)]

theorem take_filled (store : Store α size) (values : List α) (h : values.length ≤ size)
    (count : Nat) (hcount : count = values.length) : (store.filled values h).cells.take count = values := by
  simp [filled, hcount]

end Store

end Library.Memory
