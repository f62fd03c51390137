import WordMachine.Word.Numeral

namespace WordMachine.Word

structure Digits (digits : List Char) (n : Nat) : Prop where
  filled : digits ≠ []
  isDigit : ∀ c ∈ digits, c.isDigit
  value : Nat.ofDigitChars 10 digits 0 = n

inductive IsNumeral (w : Word) : List Char → Prop
  | plain {digits : List Char} {n : Nat} : Digits digits n → w.toInt = n → IsNumeral w digits
  | plus {digits : List Char} {n : Nat} :
    Digits digits n → w.toInt = n → IsNumeral w ('+' :: digits)
  | minus {digits : List Char} {n : Nat} :
    Digits digits n → w.toInt = -n → IsNumeral w ('-' :: digits)

def signed (negative : Bool) (n : Nat) : Int := if negative then -n else n

theorem le_ofDigitChars (digits : List Char) (n : Nat) : n ≤ Nat.ofDigitChars 10 digits n := by
  rw [Nat.ofDigitChars_eq_ofDigitChars_zero]
  have := Nat.le_mul_of_pos_left n (Nat.pow_pos (n := digits.length) (by decide : 0 < 10))
  omega

theorem ofInt?_signed_eq_none (h : ofInt? (signed negative n) = none) (le : n ≤ k) :
    ofInt? (signed negative k) = none := by
  rw [ofInt?_eq_none_iff] at *
  cases negative <;> simp only [signed] at * <;> simp at * <;> omega

theorem appendDigits_eq_ok_iff {w : Word} (h : w.toInt = signed negative n) :
    appendDigits negative w chars = .ok v ↔
      (∀ c ∈ chars, c.isDigit) ∧ v.toInt = signed negative (Nat.ofDigitChars 10 chars n) := by
  induction chars generalizing w n with
  | nil =>
    rw [Nat.ofDigitChars_nil, ← h, Int64.toInt_inj, eq_comm]
    simp [appendDigits]
  | cons c rest ih =>
    rw [List.forall_mem_cons, Nat.ofDigitChars_cons, appendDigits]
    by_cases hc : c.isDigit
    · have next : (if negative then w.toInt * 10 - (c.toNat - '0'.toNat : Nat)
          else w.toInt * 10 + (c.toNat - '0'.toNat : Nat)) =
            signed negative (10 * n + (c.toNat - '0'.toNat)) := by
        rw [h]
        cases negative <;> simp only [signed] <;> simp <;> omega
      simp only [digit?, hc, if_true, next, true_and]
      cases fits : ofInt? (signed negative (10 * n + (c.toNat - '0'.toNat))) with
      | some w₁ => exact ih (ofInt?_eq_some_iff.1 fits)
      | none =>
        have exceeds := ofInt?_signed_eq_none fits (le_ofDigitChars rest _)
        rw [← ofInt?_eq_some_iff, exceeds]
        simp
    · simp [digit?, hc]

theorem appendDigits_zero_eq_ok_iff {digits : List Char} (filled : digits ≠ []) :
    appendDigits negative 0 digits = .ok w ↔
      ∃ n, Digits digits n ∧ w.toInt = signed negative n := by
  have zero : (0 : Word).toInt = signed negative 0 := by cases negative <;> rfl
  rw [appendDigits_eq_ok_iff zero]
  constructor
  · rintro ⟨isDigit, value⟩
    exact ⟨_, ⟨filled, isDigit, rfl⟩, value⟩
  · rintro ⟨n, digits, value⟩
    exact ⟨digits.isDigit, by rw [digits.value, value]⟩

theorem isNumeral_of_parseChars (h : parseChars chars = .ok w) : IsNumeral w chars := by
  fun_cases parseChars chars with
  | case1 => cases h
  | case2 => cases h
  | case3 => cases h
  | case4 digits filled =>
    simp only [parseChars, appendDigits_zero_eq_ok_iff filled] at h
    obtain ⟨n, digits, value⟩ := h
    exact .plus digits value
  | case5 digits filled =>
    simp only [parseChars, appendDigits_zero_eq_ok_iff filled] at h
    obtain ⟨n, digits, value⟩ := h
    exact .minus digits value
  | case6 chars filled =>
    simp only [parseChars, appendDigits_zero_eq_ok_iff filled] at h
    obtain ⟨n, digits, value⟩ := h
    exact .plain digits value

theorem parseChars_of_isNumeral (h : IsNumeral w chars) : parseChars chars = .ok w := by
  cases h with
  | plain digits value =>
    have unsigned (sign : Char) (hs : sign.isDigit = false) : ∀ rest, chars ≠ sign :: rest := by
      rintro rest rfl
      simpa [hs] using digits.isDigit sign (by simp)
    have plus := unsigned '+' rfl
    have minus := unsigned '-' rfl
    rw [parseChars, appendDigits_zero_eq_ok_iff digits.filled]
    · exact ⟨_, digits, value⟩
    · exact digits.filled
    · exact plus _
    · exact minus _
    · exact plus
    · exact minus
  | plus digits value =>
    rw [parseChars, appendDigits_zero_eq_ok_iff digits.filled]
    · exact ⟨_, digits, value⟩
    · exact digits.filled
  | minus digits value =>
    rw [parseChars, appendDigits_zero_eq_ok_iff digits.filled]
    · exact ⟨_, digits, value⟩
    · exact digits.filled

theorem IsNumeral.unique (h : IsNumeral w chars) (h₁ : IsNumeral w₁ chars) : w = w₁ :=
  Except.ok.inj ((parseChars_of_isNumeral h).symm.trans (parseChars_of_isNumeral h₁))

theorem parse_eq_ok_iff {s : String} : parse s = .ok w ↔ IsNumeral w s.toList :=
  ⟨isNumeral_of_parseChars, parseChars_of_isNumeral⟩

def padded (zeros n : Nat) : List Char := List.replicate zeros '0' ++ Nat.toDigits 10 n

theorem digits_padded (zeros n : Nat) : Digits (padded zeros n) n where
  filled := by simp [padded]
  isDigit := by
    intro c member
    rcases List.mem_append.1 member with zero | digit
    · rw [List.eq_of_mem_replicate zero]
      rfl
    · exact Nat.isDigit_of_mem_toDigits (b := 10) (by decide) (by decide) digit
  value := by
    rw [padded, Nat.ofDigitChars_append, Nat.ofDigitChars_replicate_zero, Nat.mul_zero,
      Nat.ofDigitChars_ten_toDigits]

/-- The ways to write a word in decimal. Zeros may stand before the digits, and a plus sign before
a word that is not negative. -/
inductive Spells (w : Word) : String → Prop
  | plain (zeros : Nat) : 0 ≤ w.toInt → Spells w (String.ofList (padded zeros w.toInt.natAbs))
  | plus (zeros : Nat) :
    0 ≤ w.toInt → Spells w (String.ofList ('+' :: padded zeros w.toInt.natAbs))
  | minus (zeros : Nat) :
    w.toInt < 0 → Spells w (String.ofList ('-' :: padded zeros w.toInt.natAbs))

theorem Spells.isNumeral {w : Word} (h : Spells w s) : IsNumeral w s.toList := by
  cases h with
  | plain zeros nonneg =>
    rw [String.toList_ofList]
    exact .plain (digits_padded zeros _) (by omega)
  | plus zeros nonneg =>
    rw [String.toList_ofList]
    exact .plus (digits_padded zeros _) (by omega)
  | minus zeros negative =>
    rw [String.toList_ofList]
    exact .minus (digits_padded zeros _) (by omega)

theorem spells_text (w : Word) : Spells w w.text := by
  rw [text, Int.toString_eq_repr, Int.repr_eq_if]
  split
  case isTrue nonneg =>
    have magnitude : w.toInt.toNat = w.toInt.natAbs := by omega
    rw [magnitude, Nat.repr_eq_ofList_toDigits]
    exact .plain 0 nonneg
  case isFalse negative =>
    have magnitude : (-w.toInt).toNat = w.toInt.natAbs := by omega
    rw [magnitude, Nat.repr_eq_ofList_toDigits, ← String.ofList_append]
    exact .minus 0 (by omega)

end WordMachine.Word
