import Std.Data.TreeSet

namespace WordMachine

structure Position where
  x : Int
  y : Int
  deriving DecidableEq

namespace Position

def origin : Position := ⟨0, 0⟩

instance : Ord Position := ⟨compareLex (compareOn Position.x) (compareOn Position.y)⟩

instance : Std.TransOrd Position :=
  inferInstanceAs (Std.TransCmp (compareLex (compareOn Position.x) (compareOn Position.y)))

instance : Std.LawfulEqOrd Position where
  eq_of_compare := by
    intro p q h
    have h : compareLex (compareOn Position.x) (compareOn Position.y) p q = .eq := h
    rw [compareLex_eq_eq] at h
    obtain ⟨hx, hy⟩ := h
    have hx : p.x = q.x := Std.LawfulEqOrd.eq_of_compare hx
    have hy : p.y = q.y := Std.LawfulEqOrd.eq_of_compare hy
    cases p
    cases q
    simp_all

theorem nodup_toList (cells : Std.TreeSet Position) : cells.toList.Nodup := by
  refine Std.TreeSet.distinct_toList.imp fun {p q} differ same => ?_
  exact differ (Std.compare_eq_iff_eq.2 same)

end Position

end WordMachine
