import Mathlib.Order.Bounds.Defs
import WordMachine.Proofs.Text.Token
import WordMachine.Proofs.Word.Numeral
import WordMachine.Word.Listing

/-!
Listings. The tokens of a text are read one by one, and the first that is no numeral ends the
reading. A text is therefore read in two parts that meet at a separator like each part alone, and
words that have been written with separators between them are read back.
-/

namespace WordMachine

def BadToken.behind (count : Nat) (bad : BadToken) : BadToken :=
  { bad with position := count + bad.position }

namespace Listing

open Text Word

def parseFrom (start : Nat) (found : List String) : Except BadToken (List Word) :=
  (found.zipIdx start).mapM fun (token, position) => parseToken token position

theorem parse_eq_parseFrom (s : String) : parse s = parseFrom 0 (tokens s) := rfl

theorem parseFrom_nil (start : Nat) : parseFrom start [] = .ok [] := rfl

theorem parseFrom_cons (start : Nat) (token : String) (found : List String) :
    parseFrom start (token :: found) = do
      let w ← parseToken token start
      let words ← parseFrom (start + 1) found
      return w :: words := by
  rw [parseFrom, List.zipIdx_cons, List.mapM_cons]
  rfl

theorem parseFrom_append (start : Nat) (found found₁ : List String) :
    parseFrom start (found ++ found₁) = do
      let words ← parseFrom start found
      let words₁ ← parseFrom (start + found.length) found₁
      return words ++ words₁ := by
  rw [parseFrom, List.zipIdx_append, List.mapM_append]
  rfl

theorem parseToken_eq_ok_iff {token : String} :
    parseToken token position = .ok w ↔ IsNumeral w token.toList := by
  rw [← parse_eq_ok_iff, parseToken]
  cases Word.parse token <;> simp

theorem parseToken_eq_error_iff :
    parseToken token position = .error bad ↔
      (∀ w, ¬IsNumeral w token.toList) ∧ bad = ⟨token, position⟩ := by
  simp only [← parse_eq_ok_iff, parseToken]
  cases Word.parse token <;> simp [eq_comm]

theorem parseFrom_cons_of_isNumeral {w : Word} (h : IsNumeral w token.toList) (start : Nat)
    (found : List String) :
    parseFrom start (token :: found) = (parseFrom (start + 1) found).map (w :: ·) := by
  rw [parseFrom_cons, parseToken_eq_ok_iff.2 h]
  cases parseFrom (start + 1) found <;> rfl

theorem parseFrom_cons_of_not (h : ∀ w, ¬IsNumeral w token.toList) (start : Nat)
    (found : List String) : parseFrom start (token :: found) = .error ⟨token, start⟩ := by
  rw [parseFrom_cons, parseToken_eq_error_iff.2 ⟨h, rfl⟩]
  rfl

theorem map_cons_eq_ok_iff {result : Except BadToken (List Word)} {w : Word} :
    result.map (w :: ·) = .ok words ↔ ∃ rest, result = .ok rest ∧ words = w :: rest := by
  cases result <;> simp [Except.map, eq_comm]

theorem map_cons_eq_error_iff {result : Except BadToken (List Word)} {w : Word} :
    result.map (w :: ·) = .error bad ↔ result = .error bad := by
  cases result <;> simp [Except.map]

theorem parseFrom_eq_ok_iff :
    parseFrom start found = .ok words ↔
      List.Forall₂ (fun token w => IsNumeral w token.toList) found words := by
  induction found generalizing start words with
  | nil =>
    rw [parseFrom_nil, Except.ok.injEq, List.forall₂_nil_left_iff, eq_comm]
  | cons token found ih =>
    rw [List.forall₂_cons_left_iff]
    by_cases numeral : ∃ w, IsNumeral w token.toList
    · obtain ⟨w, numeral⟩ := numeral
      rw [parseFrom_cons_of_isNumeral numeral, map_cons_eq_ok_iff]
      constructor
      · rintro ⟨rest, parsed, rfl⟩
        exact ⟨w, rest, numeral, ih.1 parsed, rfl⟩
      · rintro ⟨w₁, rest, numeral₁, numerals, rfl⟩
        rw [numeral.unique numeral₁]
        exact ⟨rest, ih.2 numerals, rfl⟩
    · rw [not_exists] at numeral
      simp [parseFrom_cons_of_not numeral, numeral]

theorem parseFrom_eq_error_iff :
    parseFrom start found = .error bad ↔
      ∃ good rest, found = good ++ bad.token :: rest ∧ bad.position = start + good.length ∧
        (∀ token ∈ good, ∃ w, IsNumeral w token.toList) ∧
        ∀ w, ¬IsNumeral w bad.token.toList := by
  induction found generalizing start with
  | nil => simp [parseFrom_nil]
  | cons token found ih =>
    by_cases numeral : ∃ w, IsNumeral w token.toList
    · obtain ⟨w, numeral⟩ := numeral
      rw [parseFrom_cons_of_isNumeral numeral, map_cons_eq_error_iff, ih]
      constructor
      · rintro ⟨good, rest, rfl, position, numerals, refused⟩
        exact ⟨token :: good, rest, rfl, by simp; omega,
          List.forall_mem_cons.2 ⟨⟨w, numeral⟩, numerals⟩, refused⟩
      · rintro ⟨_ | ⟨first, good⟩, rest, split, position, numerals, refused⟩
        · obtain ⟨rfl, -⟩ := List.cons.inj split
          exact absurd numeral (refused w)
        · obtain ⟨rfl, rfl⟩ := List.cons.inj split
          exact ⟨good, rest, rfl, by simp at position; omega, (List.forall_mem_cons.1 numerals).2,
            refused⟩
    · rw [not_exists] at numeral
      rw [parseFrom_cons_of_not numeral, Except.error.injEq]
      constructor
      · rintro rfl
        exact ⟨[], found, rfl, rfl, by simp, numeral⟩
      · rintro ⟨_ | ⟨first, good⟩, rest, split, position, numerals, refused⟩
        · obtain ⟨rfl, -⟩ := List.cons.inj split
          cases bad
          simp_all
        · obtain ⟨rfl, rfl⟩ := List.cons.inj split
          obtain ⟨w, accepted⟩ := numerals token (by simp)
          exact absurd accepted (numeral w)

theorem exists_parseFrom_eq_error_iff :
    (∃ bad, parseFrom start found = .error bad) ↔
      ∃ token ∈ found, ∀ w, ¬IsNumeral w token.toList := by
  induction found generalizing start with
  | nil => simp [parseFrom_nil]
  | cons token found ih =>
    by_cases numeral : ∃ w, IsNumeral w token.toList
    · obtain ⟨w, numeral⟩ := numeral
      have accepted : ¬∀ w, ¬IsNumeral w token.toList := fun refused => refused w numeral
      simp only [parseFrom_cons_of_isNumeral numeral, map_cons_eq_error_iff, ih,
        List.exists_mem_cons_iff, accepted, false_or]
    · rw [not_exists] at numeral
      simp [parseFrom_cons_of_not numeral, numeral]

theorem parseFrom_zero_eq_error_iff :
    parseFrom 0 found = .error bad ↔
      IsLeast {i | ∃ token, found[i]? = some token ∧ ∀ w, ¬IsNumeral w token.toList}
        bad.position ∧ found[bad.position]? = some bad.token := by
  rw [parseFrom_eq_error_iff]
  constructor
  · rintro ⟨good, rest, rfl, position, numerals, refused⟩
    rw [Nat.zero_add] at position
    have here : (good ++ bad.token :: rest)[bad.position]? = some bad.token := by
      simp [position]
    refine ⟨⟨⟨bad.token, here, refused⟩, ?_⟩, here⟩
    rintro i ⟨token, there, refused₁⟩
    by_contra before
    rw [List.getElem?_append_left (by omega)] at there
    obtain ⟨w, numeral⟩ := numerals token (List.mem_of_getElem? there)
    exact refused₁ w numeral
  · rintro ⟨⟨⟨token, there, refused⟩, least⟩, here⟩
    obtain rfl : bad.token = token := Option.some.inj (here.symm.trans there)
    obtain ⟨inside, value⟩ := List.getElem?_eq_some_iff.1 here
    refine ⟨found.take bad.position, found.drop (bad.position + 1), ?_, ?_, ?_, refused⟩
    · rw [← value, List.getElem_cons_drop, List.take_append_drop]
    · rw [List.length_take_of_le (by omega), Nat.zero_add]
    · intro token₁ member
      obtain ⟨i, before, rfl⟩ := List.mem_take_iff_getElem.1 member
      by_contra! refused₁
      have le := least ⟨_, List.getElem?_eq_getElem (by omega), refused₁⟩
      omega

theorem parseFrom_add (count start : Nat) (found : List String) :
    parseFrom (count + start) found = (parseFrom start found).mapError (.behind count) := by
  induction found generalizing start with
  | nil => rfl
  | cons token found ih =>
    by_cases numeral : ∃ w, IsNumeral w token.toList
    · obtain ⟨w, numeral⟩ := numeral
      rw [parseFrom_cons_of_isNumeral numeral, parseFrom_cons_of_isNumeral numeral, Nat.add_assoc,
        ih]
      cases parseFrom (start + 1) found <;> rfl
    · rw [not_exists] at numeral
      rw [parseFrom_cons_of_not numeral, parseFrom_cons_of_not numeral]
      rfl

theorem parse_append (hc : isSeparator c) (s u : String) :
    parse (s ++ String.singleton c ++ u) = do
      let words ← parse s
      let words₁ ← (parse u).mapError (.behind (tokens s).length)
      return words ++ words₁ := by
  simp only [parse_eq_parseFrom]
  rw [tokens_append hc, parseFrom_append, Nat.add_comm, parseFrom_add]

theorem parse_append_eq_error_iff (hc : isSeparator c) :
    parse (s ++ String.singleton c ++ u) = .error bad ↔
      parse s = .error bad ∨ (∀ bad₁, parse s ≠ .error bad₁) ∧
        ∃ position, parse u = .error ⟨bad.token, position⟩ ∧
          bad.position = (tokens s).length + position := by
  rw [parse_append hc]
  cases first : parse s with
  | error bad₁ => simp [bind, Except.bind]
  | ok words =>
    cases second : parse u with
    | ok words₁ => simp [bind, Except.bind, Except.mapError, pure, Except.pure]
    | error bad₁ =>
      obtain ⟨token, position⟩ := bad
      obtain ⟨token₁, position₁⟩ := bad₁
      simp [bind, Except.bind, Except.mapError, BadToken.behind, and_assoc, eq_comm]

theorem isSeparator_of_isDigit (h : c.isDigit) : isSeparator c = false := by
  have range : 48 ≤ c.toNat ∧ c.toNat ≤ 57 := Char.isDigit_iff_toNat.1 h
  have comma : c ≠ ',' := by
    rintro rfl
    simp at h
  simp [isSeparator, isBlank, blankRanges, comma]
  omega

theorem clean_of_isNumeral (h : IsNumeral w chars) : ∀ c ∈ chars, isSeparator c = false := by
  cases h with
  | plain digits value => exact fun c member => isSeparator_of_isDigit (digits.isDigit c member)
  | plus digits value =>
    rw [List.forall_mem_cons]
    exact ⟨rfl, fun c member => isSeparator_of_isDigit (digits.isDigit c member)⟩
  | minus digits value =>
    rw [List.forall_mem_cons]
    exact ⟨rfl, fun c member => isSeparator_of_isDigit (digits.isDigit c member)⟩

theorem tokens_of_isNumeral {s : String} (h : IsNumeral w s.toList) : tokens s = [s] := by
  refine tokens_of_clean ?_ (clean_of_isNumeral h)
  rintro rfl
  cases h with
  | plain digits => exact digits.filled rfl

inductive Row : List Word → String → Prop
  | nil : Row [] ""
  | single {w : Word} {token : String} : Spells w token → Row [w] token
  | cons {w w₁ : Word} {words : List Word} {token gap rest : String} :
    Spells w token → IsGap gap → gap ≠ "" → Row (w₁ :: words) rest →
      Row (w :: w₁ :: words) (token ++ gap ++ rest)

theorem Row.parse_eq_ok (h : Row words row) : parse row = .ok words := by
  rw [parse_eq_parseFrom, parseFrom_eq_ok_iff]
  induction h with
  | nil => exact .nil
  | single spells =>
    rw [tokens_of_isNumeral spells.isNumeral]
    exact .cons spells.isNumeral .nil
  | cons spells gap filled row ih =>
    rw [tokens_append_gap_append gap filled, tokens_of_isNumeral spells.isNumeral]
    exact .cons spells.isNumeral ih

theorem parse_gap_append_gap (before : IsGap front) (after : IsGap rest) (s : String) :
    parse (front ++ s ++ rest) = parse s := by
  rw [parse_eq_parseFrom, tokens_append_gap after, tokens_gap_append before]
  rfl

theorem text_cons_cons (w w₁ : Word) (words : List Word) :
    text (w :: w₁ :: words) = w.text ++ "," ++ text (w₁ :: words) :=
  String.intercalate_cons_cons

theorem row_text (words : List Word) : Row words (text words) := by
  induction words with
  | nil => exact .nil
  | cons w words ih =>
    cases words with
    | nil => exact .single (spells_text w)
    | cons w₁ words =>
      rw [text_cons_cons]
      exact .cons (spells_text w) (by simp [IsGap, isSeparator]) (by decide) ih

theorem toNat_of_mem_numeral (h : IsNumeral w chars) (member : c ∈ chars) :
    43 ≤ c.toNat ∧ c.toNat ≤ 57 := by
  have digit {digits : List Char} {n : Nat} (h : Digits digits n) (member : c ∈ digits) :
      43 ≤ c.toNat ∧ c.toNat ≤ 57 := by
    have range : 48 ≤ c.toNat ∧ c.toNat ≤ 57 := Char.isDigit_iff_toNat.1 (h.isDigit c member)
    omega
  cases h with
  | plain digits => exact digit digits member
  | plus digits | minus digits =>
    rcases List.mem_cons.1 member with rfl | member
    · decide
    · exact digit digits member

theorem toNat_of_mem_text {words : List Word} (member : c ∈ (text words).toList) :
    43 ≤ c.toNat ∧ c.toNat ≤ 57 := by
  induction words with
  | nil => cases member
  | cons w words ih =>
    have numeral := (spells_text w).isNumeral
    cases words with
    | nil => exact toNat_of_mem_numeral numeral member
    | cons w₁ words =>
      rw [text_cons_cons, String.toList_append, String.toList_append, List.append_assoc,
        List.mem_append, List.mem_append] at member
      rcases member with member | member | member
      · exact toNat_of_mem_numeral numeral member
      · obtain rfl : c = ',' := by simpa using member
        decide
      · exact ih member

theorem text_ne_empty {words : List Word} (h : words ≠ []) : text words ≠ "" := by
  intro empty
  have parsed := (row_text words).parse_eq_ok
  rw [empty] at parsed
  exact h (Except.ok.inj parsed).symm

end Listing

end WordMachine
