namespace WordMachine

abbrev Word := Int64

namespace Word

@[inline] def ofInt? (n : Int) : Option Word :=
  if (Int64.ofInt n).toInt = n then some (Int64.ofInt n) else none

@[inline] def add? (a b : Word) : Option Word := ofInt? (a.toInt + b.toInt)

@[inline] def mul? (a b : Word) : Option Word := ofInt? (a.toInt * b.toInt)

@[inline] def ofBool (b : Bool) : Word := if b then 1 else 0

def sign (w : Word) : Word := Int64.ofInt w.toInt.sign

@[inline] def index? (a : Word) : Option Nat :=
  if 0 ≤ a.toInt then some a.toInt.toNat else none

def text (w : Word) : String := toString w.toInt

theorem ofInt?_eq_some_iff {n : Int} {w : Word} : ofInt? n = some w ↔ w.toInt = n := by
  unfold ofInt?
  constructor
  · intro h
    split at h
    · cases h
      assumption
    · cases h
  · rintro rfl
    simp

theorem ofInt?_eq_none_iff {n : Int} :
    ofInt? n = none ↔ n < -9223372036854775808 ∨ 9223372036854775807 < n := by
  rw [Option.eq_none_iff_forall_ne_some]
  constructor
  · intro h
    refine Decidable.byContradiction fun fits => h (Int64.ofInt n) ?_
    exact ofInt?_eq_some_iff.2 (Int64.toInt_ofInt_of_le (by omega) (by omega))
  · intro h w hw
    have := ofInt?_eq_some_iff.1 hw
    have := w.le_toInt
    have := w.toInt_lt
    omega

theorem add?_eq_some_iff {a b c : Word} : add? a b = some c ↔ c.toInt = a.toInt + b.toInt :=
  ofInt?_eq_some_iff

theorem index?_eq_some_iff {a : Word} {i : Nat} : index? a = some i ↔ a.toInt = i := by
  unfold index?
  split
  · rw [Option.some.injEq]
    omega
  · simp only [reduceCtorEq, false_iff]
    omega

theorem index?_eq_none_iff {a : Word} : index? a = none ↔ a.toInt < 0 := by
  simp [index?]

end Word

end WordMachine
