import WordMachine.Proofs.Journal
import WordMachine.Proofs.Memory

namespace WordMachine

theorem Word.index?_eq_none_iff_neg {a : Word} : Word.index? a = none ↔ a < 0 := by
  rw [Word.index?_eq_none_iff, Int64.lt_iff_toInt_lt]
  rfl

theorem Word.index?_of_not_neg {a : Word} (h : ¬a < 0) : Word.index? a = some a.toInt.toNat := by
  rw [Int64.lt_iff_toInt_lt] at h
  exact if_pos (Int.not_lt.1 h)

theorem Word.eq_of_index? {a b : Word} (h : Word.index? a = some i) (h₁ : Word.index? b = some i) :
    a = b := by
  rw [Word.index?_eq_some_iff] at h h₁
  rw [← Int64.toInt_inj, h, h₁]

namespace Memory

open Journal (latest?)

def attempt (m : Memory) (address w : Word) : Memory :=
  match m.write address w with
  | .ok m₁ => m₁
  | .error _ => m

def written (m : Memory) (writes : List (Word × Word)) : Memory :=
  writes.foldl (fun m entry => m.attempt entry.1 entry.2) m

theorem attempt_eq (m : Memory) (a w : Word) :
    m.attempt a w = (Word.index? a).elim m (m.set · w) := by
  unfold attempt write
  cases Word.index? a <;> rfl

theorem attempt_of_neg (m : Memory) (h : a < 0) (w : Word) : m.attempt a w = m := by
  rw [attempt_eq, Word.index?_eq_none_iff_neg.2 h]
  rfl

theorem write_eq (m : Memory) (a w : Word) :
    m.write a w = if a < 0 then .error (.invalidAddress a) else .ok (m.attempt a w) := by
  by_cases negative : a < 0
  · simp [write, Word.index?_eq_none_iff_neg.2 negative, negative]
  · simp [write, attempt, Word.index?_of_not_neg negative, negative]

theorem read_eq (m : Memory) (a : Word) :
    m.read a = if a < 0 then .error (.invalidAddress a) else .ok (m.get a.toInt.toNat) := by
  by_cases negative : a < 0
  · simp [read, Word.index?_eq_none_iff_neg.2 negative, negative]
  · simp [read, Word.index?_of_not_neg negative, negative]

@[simp] theorem size_image_attempt (m : Memory) (a w : Word) :
    (m.attempt a w).image.size = m.image.size := by
  rw [attempt_eq]
  cases Word.index? a <;> simp

theorem get_attempt (m : Memory) (a w : Word) (i : Nat) :
    (m.attempt a w).get i = if Word.index? a = some i then w else m.get i := by
  rw [attempt_eq]
  cases Word.index? a <;> simp [get_set]

theorem mem_overflow_set (m : Memory) (i j : Nat) (w : Word) :
    j ∈ (m.set i w).overflow ↔ m.image.size ≤ j ∧ i = j ∨ j ∈ m.overflow := by
  unfold set
  split
  · next inside =>
    have elsewhere : ¬(m.image.size ≤ j ∧ i = j) := by omega
    simp [elsewhere]
  · next beyond =>
    have same : i = j ↔ m.image.size ≤ j ∧ i = j := by omega
    rw [Std.TreeMap.mem_insert, Std.compare_eq_iff_eq, ← same]

theorem mem_overflow_attempt (m : Memory) (a w : Word) (i : Nat) :
    i ∈ (m.attempt a w).overflow ↔
      m.image.size ≤ i ∧ Word.index? a = some i ∨ i ∈ m.overflow := by
  rw [attempt_eq]
  cases Word.index? a <;> simp [mem_overflow_set]

@[simp] theorem written_nil (m : Memory) : m.written [] = m := rfl

@[simp] theorem written_cons (m : Memory) (a w : Word) (writes : List (Word × Word)) :
    m.written ((a, w) :: writes) = (m.attempt a w).written writes := rfl

@[simp] theorem size_image_written (m : Memory) (writes : List (Word × Word)) :
    (m.written writes).image.size = m.image.size := by
  induction writes generalizing m with
  | nil => rfl
  | cons entry writes ih => rw [written_cons, ih, size_image_attempt]

theorem get_written (cell : Word.index? a = some i) (m : Memory) (writes : List (Word × Word)) :
    (m.written writes).get i = (latest? writes a).getD (m.get i) := by
  induction writes generalizing m with
  | nil => rfl
  | cons entry writes ih =>
    obtain ⟨b, w⟩ := entry
    have same : Word.index? b = some i ↔ b = a := by
      constructor
      · intro cell₁
        exact Word.eq_of_index? cell₁ cell
      · rintro rfl
        exact cell
    rw [written_cons, ih, get_attempt, Journal.getD_latest?_cons]
    simp only [same]

theorem get_written_of_forall_ne (h : ∀ a, Word.index? a ≠ some i) (m : Memory)
    (writes : List (Word × Word)) : (m.written writes).get i = m.get i := by
  induction writes generalizing m with
  | nil => rfl
  | cons entry writes ih => rw [written_cons, ih, get_attempt, if_neg (h entry.1)]

theorem mem_overflow_written (m : Memory) (writes : List (Word × Word)) (i : Nat) :
    i ∈ (m.written writes).overflow ↔
      (m.image.size ≤ i ∧ ∃ a ∈ writes.map Prod.fst, Word.index? a = some i) ∨ i ∈ m.overflow := by
  induction writes generalizing m with
  | nil => simp
  | cons entry writes ih =>
    rw [written_cons, ih, mem_overflow_attempt, size_image_attempt]
    simp only [List.map_cons, List.mem_cons, exists_eq_or_imp]
    rw [or_left_comm, and_or_left, or_assoc]

theorem get_ofList (image : List Word) (i : Nat) : (ofList image).get i = image[i]?.getD 0 := by
  by_cases inside : i < image.length <;> simp [get, ofList, inside]

theorem read_of_index? (m : Memory) (h : Word.index? a = some i) : m.read a = .ok (m.get i) := by
  simp [read, h]

theorem overflowSize_written (image : List Word) (writes : List (Word × Word)) :
    ((ofList image).written writes).overflowSize =
      (((writes.map Prod.fst).filterMap Word.index?).filter (image.length ≤ ·)).dedup.length := by
  rw [overflowSize, ← Std.TreeMap.length_keys]
  apply Journal.length_eq_length_dedup Std.TreeMap.nodup_keys
  intro i
  rw [Std.TreeMap.mem_keys, mem_overflow_written]
  simp [ofList, and_comm]

/-- Whatever has been tried to write, memory reads as one array: the last word written to an
address, or the word of the image there, or zero. Writes fail just where there is no cell and then
change nothing. The image keeps its size and shows what is read, and beyond it the cells that have
been written are counted once each. -/
theorem written_reads_as_array (image : List Word) (writes : List (Word × Word)) :
    let m := (ofList image).written writes
    (∀ a : Word, m.read a = if a < 0 then .error (.invalidAddress a)
      else .ok ((latest? writes a).getD (image[a.toInt.toNat]?.getD 0))) ∧
    (∀ a w : Word, m.write a w = if a < 0 then .error (.invalidAddress a)
      else .ok (m.attempt a w)) ∧
    (∀ a w : Word, a < 0 → m.attempt a w = m) ∧
    m.imageSize = image.length ∧
    (∀ (i : Nat) (inside : i < m.image.size) (a : Word), a.toInt = i →
      m.read a = .ok m.image[i]) ∧
    m.overflowSize =
      (((writes.map Prod.fst).filterMap Word.index?).filter (image.length ≤ ·)).dedup.length := by
  intro m
  refine ⟨?_, m.write_eq, ?_, ?_, ?_, overflowSize_written image writes⟩
  · intro a
    rw [read_eq]
    split
    · rfl
    · next natural => rw [get_written (Word.index?_of_not_neg natural), get_ofList]
  · intro a w negative
    exact m.attempt_of_neg negative w
  · simp [imageSize, m, ofList]
  · intro i inside a cell
    rw [read_of_index? m (Word.index?_eq_some_iff.2 cell), get_of_lt inside]

instance : EquivBEq Memory where
  rfl := beq_iff_get_eq.2 ⟨rfl, fun _ => rfl⟩
  symm := by
    intro a b h
    rw [beq_iff_get_eq] at h ⊢
    exact ⟨h.1.symm, fun i => (h.2 i).symm⟩
  trans := by
    intro a b c h h₁
    rw [beq_iff_get_eq] at h h₁ ⊢
    exact ⟨h.1.trans h₁.1, fun i => (h.2 i).trans (h₁.2 i)⟩

theorem beq_attempt {a b : Memory} (h : (a == b) = true) (x w : Word) :
    (a.attempt x w == b.attempt x w) = true := by
  rw [beq_iff_get_eq] at h ⊢
  refine ⟨by simpa [imageSize] using h.1, ?_⟩
  intro i
  rw [get_attempt, get_attempt, h.2 i]

theorem beq_attempt_comm (m : Memory) (ne : x ≠ y) (v w : Word) :
    ((m.attempt x v).attempt y w == (m.attempt y w).attempt x v) = true := by
  rw [beq_iff_get_eq]
  refine ⟨by simp [imageSize], ?_⟩
  intro i
  simp only [get_attempt]
  by_cases here : Word.index? x = some i
  · have elsewhere : Word.index? y ≠ some i := fun cell => ne (Word.eq_of_index? here cell)
    rw [if_neg elsewhere, if_pos here, if_pos here]
  · simp only [if_neg here]

theorem get_eq_of_read_eq {image image₁ : List Word} {writes writes₁ : List (Word × Word)}
    (short : image.length ≤ 9223372036854775808) (length : image.length = image₁.length)
    (reads : ∀ x : Word, 0 ≤ x →
      ((ofList image).written writes).read x = ((ofList image₁).written writes₁).read x) (i : Nat) :
    ((ofList image).written writes).get i = ((ofList image₁).written writes₁).get i := by
  by_cases addressed : i < 9223372036854775808
  · have cell : Word.index? (Int64.ofNat i) = some i :=
      Word.index?_eq_some_iff.2 (Int64.toInt_ofNat_of_lt addressed)
    have natural : 0 ≤ Int64.ofNat i := by
      rw [Int64.le_iff_toInt_le, Int64.toInt_ofNat_of_lt addressed]
      exact Int.natCast_nonneg i
    have same := reads _ natural
    rw [read_of_index? _ cell, read_of_index? _ cell] at same
    exact Except.ok.inj same
  · have nowhere (a : Word) : Word.index? a ≠ some i := by
      intro cell
      have := Word.index?_eq_some_iff.1 cell
      have := a.toInt_lt
      omega
    rw [get_written_of_forall_ne nowhere, get_written_of_forall_ne nowhere, get_ofList, get_ofList,
      List.getElem?_eq_none (by omega), List.getElem?_eq_none (by omega)]

/-- Memories are equal just if their images have one size and every address reads the same, for
images that do not outgrow the addresses. So equality is an equivalence, lasts through writes and
does not see the order of writes to different addresses. -/
theorem beq_iff_reads_agree (image image₁ image₂ : List Word)
    (writes writes₁ writes₂ : List (Word × Word)) (short : image.length ≤ 9223372036854775808) :
    let a := (ofList image).written writes
    let b := (ofList image₁).written writes₁
    let c := (ofList image₂).written writes₂
    ((a == b) = true ↔ a.imageSize = b.imageSize ∧ ∀ x : Word, 0 ≤ x → a.read x = b.read x) ∧
    (a == a) = true ∧ ((a == b) = true → (b == a) = true) ∧
    ((a == b) = true → (b == c) = true → (a == c) = true) ∧
    ((a == b) = true → ∀ x w, (a.attempt x w == b.attempt x w) = true) ∧
    ∀ x y v w, x ≠ y → ((a.attempt x v).attempt y w == (a.attempt y w).attempt x v) = true := by
  intro a b c
  refine ⟨⟨?_, ?_⟩, BEq.rfl, BEq.symm, BEq.trans, beq_attempt, ?_⟩
  · intro same
    obtain ⟨size, cells⟩ := beq_iff_get_eq.1 same
    refine ⟨size, ?_⟩
    intro x natural
    rw [read_eq, read_eq, cells]
  · rintro ⟨size, reads⟩
    have length : image.length = image₁.length := by
      simpa [imageSize, a, b, ofList] using size
    exact beq_iff_get_eq.2 ⟨size, get_eq_of_read_eq short length reads⟩
  · intro x y v w ne
    exact beq_attempt_comm a ne v w

theorem beq_iff_reads_agree_stored_zero :
    let a := (ofList [1, 2]).written [(100, 7), (-1, 5), (100, 0)]
    let b := (ofList [1, 0]).written [(1, 2)]
    (a == b) = true ∧ a.overflowSize = 1 ∧ b.overflowSize = 0 ∧
      ∀ x : Word, 0 ≤ x → a.read x = b.read x := by
  intro a b
  have same : (a == b) = true := by decide
  have reads := (beq_iff_reads_agree [1, 2] [1, 0] [] [(100, 7), (-1, 5), (100, 0)] [(1, 2)] []
    (by decide)).1.1 same
  exact ⟨same, by decide, by decide, reads.2⟩

end Memory

end WordMachine
