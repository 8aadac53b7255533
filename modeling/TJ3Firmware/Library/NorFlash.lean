import Mathlib.Data.BitVec
import Mathlib.Data.List.GetD

namespace Library.NorFlash

variable {width : Nat}

-- The bits of each cell that read as 0, or as 1, whatever was stored.
structure Defects (width : Nat) where
  low : Int → BitVec width
  high : Int → BitVec width

def Defects.none : Defects width := ⟨fun _ => 0, fun _ => 0⟩

-- What a cell holds after an attempt to store this.
def Defects.settle (defects : Defects width) (address : Int) (value : BitVec width) : BitVec width :=
  (value &&& ~~~defects.low address) ||| defects.high address

abbrev Cells (width : Nat) := Int → BitVec width

def Covers (offset : Int) (count : Nat) (address : Int) : Prop := offset ≤ address ∧ address < offset + count

instance (offset : Int) (count : Nat) (address : Int) : Decidable (Covers offset count address) :=
  inferInstanceAs (Decidable (_ ∧ _))

-- Erasing sets the bits of a range.
def erase (defects : Defects width) (cells : Cells width) (offset : Int) (count : Nat) : Cells width := fun address =>
  if Covers offset count address then defects.settle address (BitVec.allOnes width) else cells address

-- Programming can only clear bits.
def program (defects : Defects width) (cells : Cells width) (offset : Int) (data : List (BitVec width)) :
    Cells width := fun address =>
  if Covers offset data.length address then
    defects.settle address (cells address &&& data.getD (address - offset).toNat (BitVec.allOnes width))
  else cells address

def contents (cells : Cells width) (offset : Int) (count : Nat) : List (BitVec width) :=
  (List.range count).map fun (index : Nat) => cells (offset + index)

-- The range may hold anything now, and the rest is unchanged.
def Disturbed (cells next : Cells width) (offset : Int) (count : Nat) : Prop :=
  ∀ address, ¬Covers offset count address → next address = cells address

theorem disturbed_erase (defects : Defects width) (cells : Cells width) (offset : Int) (count : Nat) :
    Disturbed cells (erase defects cells offset count) offset count := fun _ houtside => if_neg houtside

theorem disturbed_program (defects : Defects width) (cells : Cells width) (offset : Int) (data : List (BitVec width)) :
    Disturbed cells (program defects cells offset data) offset data.length := fun _ houtside => if_neg houtside

theorem disturbed_refl (cells : Cells width) (offset : Int) (count : Nat) : Disturbed cells cells offset count :=
  fun _ _ => rfl

theorem Disturbed.trans {cells middle next : Cells width} {offset : Int} {count : Nat}
    (h : Disturbed cells middle offset count) (h' : Disturbed middle next offset count) :
    Disturbed cells next offset count := by
  intro address houtside
  rw [h' address houtside, h address houtside]

-- A range inside another one.
theorem Disturbed.widen {cells next : Cells width} {inner : Int} {few : Nat} (h : Disturbed cells next inner few)
    (offset : Int) (count : Nat) (hfirst : offset ≤ inner) (hlast : inner + few ≤ offset + count) :
    Disturbed cells next offset count := by
  intro address houtside
  apply h
  intro hcovers
  apply houtside
  obtain ⟨hlow, hhigh⟩ := hcovers
  exact ⟨by omega, by omega⟩

-- Programming what was erased is storing.
theorem settle_and_settle (defects : Defects width) (address : Int) (value : BitVec width) :
    defects.settle address (defects.settle address (BitVec.allOnes width) &&& value) = defects.settle address value := by
  apply BitVec.eq_of_getElem_eq
  intro index hindex
  simp only [Defects.settle, BitVec.getElem_or, BitVec.getElem_and, BitVec.getElem_not, BitVec.getElem_allOnes]
  cases (defects.low address)[index] <;> cases (defects.high address)[index] <;> simp

theorem contents_program_erase (defects : Defects width) (cells : Cells width) (offset : Int) (count : Nat)
    (data : List (BitVec width)) (h : data.length ≤ count) :
    contents (program defects (erase defects cells offset count) offset data) offset data.length =
      data.mapIdx fun index value => defects.settle (offset + index) value := by
  apply List.ext_getElem
  · simp [contents]
  · intro index hindex hindex'
    rw [List.length_mapIdx] at hindex'
    have hprogrammed : Covers offset data.length (offset + index) := ⟨by omega, by omega⟩
    have herased : Covers offset count (offset + index) := ⟨by omega, by omega⟩
    have hoffset : (offset + index - offset).toNat = index := by omega
    simp only [contents, List.getElem_map, List.getElem_range, List.getElem_mapIdx]
    rw [program, if_pos hprogrammed, erase, if_pos herased, hoffset, List.getD_eq_getElem _ _ hindex',
      settle_and_settle]

-- Where there are no defects the data come back.
theorem settle_none (address : Int) (value : BitVec width) :
    (Defects.none : Defects width).settle address value = value := by
  simp [Defects.settle, Defects.none]

end Library.NorFlash
