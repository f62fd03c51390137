import Mathlib.Data.List.Dedup

namespace WordMachine

namespace Journal

variable [DecidableEq κ]

def latest? (entries : List (κ × ν)) (k : κ) : Option ν := entries.reverse.lookup k

@[simp] theorem latest?_nil (k : κ) : latest? ([] : List (κ × ν)) k = none := rfl

theorem latest?_cons (j : κ) (v : ν) (entries : List (κ × ν)) (k : κ) :
    latest? ((j, v) :: entries) k =
      (latest? entries k).or (if j = k then some v else none) := by
  simp only [latest?, List.reverse_cons, List.lookup_append]
  congr 1
  by_cases same : j = k
  · simp [same]
  · simp [List.lookup_cons, same, beq_eq_false_iff_ne.2 (Ne.symm same)]

theorem getD_map_latest?_cons (j : κ) (v : ν) (entries : List (κ × ν)) (k : κ) (default : α)
    (f : ν → α) :
    ((latest? ((j, v) :: entries) k).map f).getD default =
      ((latest? entries k).map f).getD (if j = k then f v else default) := by
  rw [latest?_cons]
  cases latest? entries k with
  | some w => rfl
  | none => by_cases same : j = k <;> simp [same]

theorem getD_latest?_cons (j : κ) (v : ν) (entries : List (κ × ν)) (k : κ) (default : ν) :
    (latest? ((j, v) :: entries) k).getD default =
      (latest? entries k).getD (if j = k then v else default) := by
  simpa using getD_map_latest?_cons j v entries k default id

theorem mem_keys_of_latest? {entries : List (κ × ν)} (h : latest? entries k = some v) :
    k ∈ entries.map Prod.fst := by
  have found : (entries.reverse.lookup k).isSome := by
    rw [← latest?, h]
    rfl
  obtain ⟨entry, member, same⟩ := List.lookup_isSome_iff.1 found
  rw [eq_of_beq same]
  exact List.mem_map_of_mem (List.mem_reverse.1 member)

theorem length_eq_length_dedup {keys distinct : List κ} (nodup : distinct.Nodup)
    (members : ∀ k, k ∈ distinct ↔ k ∈ keys) : distinct.length = keys.dedup.length := by
  have perm : distinct.Perm keys.dedup := by
    rw [List.perm_ext_iff_of_nodup nodup keys.nodup_dedup]
    intro k
    rw [members, List.mem_dedup]
  exact perm.length_eq

end Journal

end WordMachine
