import Std.Data.TreeMap
import WordMachine.Fault

/-!
Memory: one cell for every natural number. The image holds the cells of the program; a cell beyond
it is stored once it has been written and reads as zero before.
-/

namespace WordMachine

structure Memory where
  image : Array Word
  overflow : Std.TreeMap Nat Word := ∅
  size_le_of_mem : ∀ i ∈ overflow, image.size ≤ i := by simp

namespace Memory

def ofList (words : List Word) : Memory where
  image := words.toArray

@[inline] def imageSize (m : Memory) : Nat := m.image.size

def overflowSize (m : Memory) : Nat := m.overflow.size

@[inline] def get (m : Memory) (i : Nat) : Word :=
  if h : i < m.image.size then m.image[i] else m.overflow.getD i 0

@[inline] def set (m : Memory) (i : Nat) (w : Word) : Memory :=
  if h : i < m.image.size then
    { m with
      image := m.image.set i w
      size_le_of_mem := by simpa using m.size_le_of_mem }
  else
    { m with
      overflow := m.overflow.insert i w
      size_le_of_mem := by
        intro j hj
        rw [Std.TreeMap.mem_insert, Std.compare_eq_iff_eq] at hj
        rcases hj with rfl | hj
        · exact Nat.le_of_not_lt h
        · exact m.size_le_of_mem j hj }

@[inline] def read (m : Memory) (address : Word) : Except Fault Word :=
  match Word.index? address with
  | some i => .ok (m.get i)
  | none => .error (.invalidAddress address)

def write (m : Memory) (address w : Word) : Except Fault Memory :=
  match Word.index? address with
  | some i => .ok (m.set i w)
  | none => .error (.invalidAddress address)

/-- Whether the cells stored beyond the image hold the same in the other memory, where a cell that
is not stored holds zero. -/
def overflowAgrees (a b : Memory) : Bool :=
  a.overflow.toList.all fun (i, w) => b.overflow.getD i 0 == w

def same (a b : Memory) : Bool :=
  a.image == b.image && a.overflowAgrees b && b.overflowAgrees a

instance : BEq Memory := ⟨same⟩

@[simp] theorem size_image_set (m : Memory) (i : Nat) (w : Word) :
    (m.set i w).image.size = m.image.size := by
  unfold set
  split <;> simp

theorem get_set (m : Memory) (i j : Nat) (w : Word) :
    (m.set i w).get j = if i = j then w else m.get j := by
  unfold set
  split
  · next h =>
    simp only [get, Array.size_set]
    split
    · next hj => simp [Array.getElem_set]
    · next hj => rw [if_neg (by omega)]
  · next h =>
    simp only [get]
    split
    · next hj => rw [if_neg (by omega)]
    · next hj => simp [Std.TreeMap.getD_insert]

end Memory

end WordMachine
