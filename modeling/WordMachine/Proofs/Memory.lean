import WordMachine.Memory

namespace WordMachine

namespace Memory

theorem get_of_lt {m : Memory} (h : i < m.image.size) : m.get i = m.image[i] := by
  simp [get, h]

theorem get_of_le {m : Memory} (h : m.image.size ≤ i) : m.get i = m.overflow.getD i 0 := by
  simp [get, Nat.not_lt.2 h]

theorem overflowAgrees_iff {a b : Memory} :
    a.overflowAgrees b = true ↔ ∀ i ∈ a.overflow, a.overflow.getD i 0 = b.overflow.getD i 0 := by
  simp only [overflowAgrees, List.all_eq_true, beq_iff_eq, Prod.forall,
    Std.TreeMap.mem_toList_iff_getElem?_eq_some]
  constructor
  · intro agree i stored
    rw [Std.TreeMap.mem_iff_isSome_getElem?] at stored
    obtain ⟨w, cell⟩ := Option.isSome_iff_exists.1 stored
    rw [agree i w cell, Std.TreeMap.getD_eq_getD_getElem?, cell]
    rfl
  · intro agree i w cell
    have stored : i ∈ a.overflow := by
      rw [Std.TreeMap.mem_iff_isSome_getElem?, cell]
      rfl
    rw [← agree i stored, Std.TreeMap.getD_eq_getD_getElem?, cell]
    rfl

theorem image_eq_of_get_eq {a b : Memory} (size : a.image.size = b.image.size)
    (cells : ∀ i, a.get i = b.get i) : a.image = b.image := by
  apply Array.ext size
  intro i inside inside₁
  rw [← get_of_lt inside, ← get_of_lt inside₁]
  exact cells i

theorem get_eq_of_overflowAgrees {a b : Memory} (image : a.image = b.image)
    (left : a.overflowAgrees b = true) (right : b.overflowAgrees a = true) (i : Nat) :
    a.get i = b.get i := by
  rw [overflowAgrees_iff] at left right
  by_cases inside : i < a.image.size
  · rw [get_of_lt inside, get_of_lt (image ▸ inside)]
    simp only [image]
  · rw [get_of_le (Nat.le_of_not_lt inside), get_of_le (image ▸ Nat.le_of_not_lt inside)]
    by_cases stored : i ∈ a.overflow
    · exact left i stored
    · by_cases stored₁ : i ∈ b.overflow
      · exact (right i stored₁).symm
      · rw [Std.TreeMap.getD_eq_fallback stored, Std.TreeMap.getD_eq_fallback stored₁]

theorem overflowAgrees_of_get_eq {a b : Memory} (size : a.image.size = b.image.size)
    (cells : ∀ i, a.get i = b.get i) : a.overflowAgrees b = true := by
  rw [overflowAgrees_iff]
  intro i stored
  have beyond : a.image.size ≤ i := a.size_le_of_mem i stored
  rw [← get_of_le beyond, ← get_of_le (size ▸ beyond)]
  exact cells i

theorem beq_iff_get_eq {a b : Memory} :
    (a == b) = true ↔ a.imageSize = b.imageSize ∧ ∀ i, a.get i = b.get i := by
  have unfolded : (a == b) = true ↔
      (a.image = b.image ∧ a.overflowAgrees b = true) ∧ b.overflowAgrees a = true := by
    change same a b = true ↔ _
    simp only [same, Bool.and_eq_true, beq_iff_eq]
  rw [unfolded]
  constructor
  · rintro ⟨⟨image, left⟩, right⟩
    exact ⟨by simp [imageSize, image], get_eq_of_overflowAgrees image left right⟩
  · rintro ⟨size, cells⟩
    exact ⟨⟨image_eq_of_get_eq size cells, overflowAgrees_of_get_eq size cells⟩,
      overflowAgrees_of_get_eq size.symm fun i => (cells i).symm⟩

end Memory

end WordMachine
