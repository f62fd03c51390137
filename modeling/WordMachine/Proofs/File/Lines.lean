import WordMachine.File.Lines

namespace WordMachine.Line

theorem toList_loop (bytes : ByteArray) (i : Nat) (found : List UInt8) :
    ByteArray.toList.loop bytes i found = found.reverse ++ bytes.data.toList.drop i := by
  induction i, found using ByteArray.toList.loop.induct bytes with
  | case1 i found inside ih =>
    have here : bytes.get! i = bytes.data.toList[i] :=
      getElem!_pos bytes.data i inside
    rw [ByteArray.toList.loop, if_pos inside, ih, List.drop_eq_getElem_cons inside, here]
    simp
  | case2 i found outside =>
    have past : bytes.data.toList.length ≤ i := by simpa using outside
    rw [ByteArray.toList.loop, if_neg outside, List.drop_eq_nil_of_le past, List.append_nil]

theorem toList_eq (bytes : ByteArray) : bytes.toList = bytes.data.toList := by
  rw [ByteArray.toList, toList_loop]
  simp

theorem toList_toUTF8_append (s u : String) :
    (s ++ u).toUTF8.toList = s.toUTF8.toList ++ u.toUTF8.toList := by
  simp [toList_eq, String.toUTF8]

theorem fromUTF8?_toByteArray (text : String) :
    String.fromUTF8? text.toByteArray = some text := by
  rw [String.fromUTF8?, dif_pos text.isValidUTF8]
  rfl

theorem ofBytes_toUTF8 (text : String) : ofBytes text.toUTF8.toList = .ok text := by
  have same : text.toUTF8.toList.toByteArray = text.toByteArray := by
    apply ByteArray.ext
    simp [toList_eq, String.toUTF8]
  rw [ofBytes, same, fromUTF8?_toByteArray]

def IsPlain (text : String) : Prop := ∀ c ∈ text.toList, 32 ≤ c.toNat ∧ c.toNat < 128

theorem le_of_mem_toUTF8 {text : String} (h : IsPlain text) :
    ∀ b ∈ text.toUTF8.toList, 32 ≤ b.toNat := by
  intro b member
  rw [toList_eq, String.toUTF8, ← String.utf8Encode_toList, List.utf8Encode, List.data_toByteArray,
    List.mem_flatMap] at member
  obtain ⟨c, here, member⟩ := member
  obtain ⟨visible, ascii⟩ := h c here
  have single : c.utf8Size = 1 := by
    rw [Char.utf8Size_eq_one_iff, UInt32.le_iff_toNat_le]
    exact Nat.le_of_lt_succ ascii
  rw [String.utf8EncodeChar_eq_singleton single, List.mem_singleton] at member
  subst member
  have value : c.val.toUInt8.toNat = c.toNat % 256 := rfl
  omega

theorem splitFrom_append (clean : lineFeed ∉ bytes) (current rest : List UInt8) :
    splitFrom current (bytes ++ lineFeed :: rest) =
      ofEnded (bytes.reverse ++ current) :: splitFrom [] rest := by
  induction bytes generalizing current with
  | nil => simp [splitFrom]
  | cons b bytes ih =>
    rw [List.mem_cons, not_or] at clean
    rw [List.cons_append, splitFrom, if_neg (Ne.symm clean.1), ih clean.2]
    simp

theorem ofEnded_reverse (h : carriageReturn ∉ bytes) : ofEnded bytes.reverse = ofBytes bytes := by
  cases reversed : bytes.reverse with
  | nil =>
    rw [List.reverse_eq_nil_iff.1 reversed]
    rfl
  | cons b rest =>
    have last : b ≠ carriageReturn := by
      rintro rfl
      rw [← List.mem_reverse, reversed] at h
      exact h List.mem_cons_self
    rw [ofEnded, if_neg last, ← reversed, List.reverse_reverse]

theorem split_append (h : IsPlain text) (rest : String) :
    split (text ++ "\n" ++ rest).toUTF8 = .ok text :: split rest.toUTF8 := by
  have above := le_of_mem_toUTF8 h
  have clean : lineFeed ∉ text.toUTF8.toList := fun member => absurd (above _ member) (by decide)
  have clean₁ : carriageReturn ∉ text.toUTF8.toList :=
    fun member => absurd (above _ member) (by decide)
  have ending : "\n".toUTF8.toList = [lineFeed] := by
    rw [toList_eq]
    rfl
  rw [split, toList_toUTF8_append, toList_toUTF8_append, ending, List.append_assoc,
    List.singleton_append, splitFrom_append clean, List.append_nil, ofEnded_reverse clean₁,
    ofBytes_toUTF8]
  rfl

end WordMachine.Line
