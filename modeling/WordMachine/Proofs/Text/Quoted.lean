import WordMachine.Text.Quoted

namespace WordMachine.Text

def hexDigit (c : Char) : Nat :=
  if c.isDigit then c.toNat - '0'.toNat else c.toNat - 'a'.toNat + 10

def hexValue (digits : List Char) : Nat := digits.foldl (fun n c => 16 * n + hexDigit c) 0

theorem hexValue_toDigits (n : Nat) :
    hexValue (Nat.toDigits 16 n) = n ∧ ∀ c ∈ Nat.toDigits 16 n, c ≠ '\x7d' := by
  have digit : ∀ d < 16, hexDigit d.digitChar = d ∧ d.digitChar ≠ '\x7d' := by decide
  induction n using Nat.strongRecOn with
  | ind n ih =>
    by_cases small : n < 16
    · simp [Nat.toDigits_of_lt_base small, hexValue, digit n small]
    · obtain ⟨value, closed⟩ := ih (n / 16) (by omega)
      obtain ⟨value₁, closed₁⟩ := digit (n % 16) (Nat.mod_lt n (by decide))
      rw [Nat.toDigits_of_base_le (by decide) (by omega)]
      constructor
      · rw [hexValue] at value ⊢
        simp only [List.foldl_append, value, List.foldl_cons, List.foldl_nil, value₁]
        omega
      · intro c member
        rcases List.mem_append.1 member with member | last
        · exact closed c member
        · rw [List.mem_singleton.1 last]
          exact closed₁

def unescape? : List Char → Option (Char × List Char)
  | [] => none
  | '\\' :: 'u' :: '\x7b' :: rest =>
    some (Char.ofNat (hexValue (rest.takeWhile (· ≠ '\x7d'))),
      (rest.dropWhile (· ≠ '\x7d')).tail)
  | '\\' :: '0' :: rest => some ('\x00', rest)
  | '\\' :: 't' :: rest => some ('\t', rest)
  | '\\' :: 'r' :: rest => some ('\r', rest)
  | '\\' :: 'n' :: rest => some ('\n', rest)
  | '\\' :: c :: rest => some (c, rest)
  | c :: rest => some (c, rest)

theorem unescape?_codePoint (c : Char) (rest : List Char) :
    unescape? ((codePoint c).toList ++ rest) = some (c, rest) := by
  obtain ⟨value, closed⟩ := hexValue_toDigits c.toNat
  have written : (codePoint c).toList ++ rest =
      '\\' :: 'u' :: '\x7b' :: (Nat.toDigits 16 c.toNat ++ '\x7d' :: rest) := by
    simp [codePoint]
  have digits : ∀ d ∈ Nat.toDigits 16 c.toNat, decide (d ≠ '\x7d') = true := by simpa using closed
  rw [written, unescape?, List.takeWhile_append_of_pos digits, List.dropWhile_append_of_pos digits]
  simp [value]

theorem unescape?_escape (c : Char) (rest : List Char) :
    unescape? ((escape c).toList ++ rest) = some (c, rest) := by
  unfold escape
  split
  case h_7 _ _ backslash _ _ _ _ =>
    split
    · have literal : c.toString.toList ++ rest = c :: rest := by simp [Char.toString]
      rw [literal]
      unfold unescape?
      split <;> simp_all
    · exact unescape?_codePoint c rest
  all_goals rfl

theorem toList_quote (s : String) :
    (quote s).toList = '"' :: s.toList.flatMap (fun c => (escape c).toList) ++ ['"'] := by
  have fold (text : String) (chars : List Char) :
      (chars.foldl (fun text c => text ++ escape c) text).toList =
        text.toList ++ chars.flatMap fun c => (escape c).toList := by
    induction chars generalizing text with
    | nil => simp
    | cons c chars ih => simp [ih]
  rw [quote, String.toList_append, fold]
  rfl

theorem eq_of_flatMap_escape_eq {chars chars₁ : List Char}
    (h : chars.flatMap (fun c => (escape c).toList) =
      chars₁.flatMap (fun c => (escape c).toList)) : chars = chars₁ := by
  induction chars generalizing chars₁ with
  | nil =>
    cases chars₁ with
    | nil => rfl
    | cons d chars₁ =>
      have read := congrArg unescape? h
      rw [List.flatMap_cons, unescape?_escape] at read
      cases read
  | cons c chars ih =>
    have read := congrArg unescape? h
    rw [List.flatMap_cons, unescape?_escape] at read
    cases chars₁ with
    | nil => cases read
    | cons d chars₁ =>
      rw [List.flatMap_cons, unescape?_escape, Option.some.injEq, Prod.mk.injEq] at read
      rw [read.1, ih read.2]

theorem quote_inj {s u : String} : quote s = quote u ↔ s = u := by
  constructor
  · intro h
    have chars := congrArg String.toList h
    rw [toList_quote, toList_quote, List.append_left_inj] at chars
    exact String.toList_inj.1 (eq_of_flatMap_escape_eq (List.cons.inj chars).2)
  · rintro rfl
    rfl

end WordMachine.Text
