import Mathlib.Data.List.Sort
import WordMachine.Text.Token

namespace WordMachine.Text

theorem tokensFrom_found (found : List String) (current chars : List Char) :
    tokensFrom found current chars = found.reverse ++ tokensFrom [] current chars := by
  induction chars generalizing found current with
  | nil =>
    simp only [tokensFrom, closeToken]
    split <;> simp
  | cons c rest ih =>
    simp only [tokensFrom]
    split
    · rw [ih, ih (closeToken [] current)]
      simp only [closeToken]
      split <;> simp
    · exact ih found (c :: current)

theorem tokensFrom_append_cons (hc : isSeparator c) (found : List String)
    (current chars rest : List Char) :
    tokensFrom found current (chars ++ c :: rest) =
      tokensFrom found current chars ++ tokensFrom [] [] rest := by
  induction chars generalizing found current with
  | nil =>
    simp only [List.nil_append, tokensFrom, hc, if_true]
    exact tokensFrom_found ..
  | cons d chars ih =>
    rw [List.cons_append, tokensFrom, tokensFrom]
    split
    · exact ih _ _
    · exact ih _ _

theorem tokensFrom_of_clean (clean : ∀ c ∈ chars, isSeparator c = false) (found : List String)
    (current : List Char) :
    tokensFrom found current chars = (closeToken found (chars.reverse ++ current)).reverse := by
  induction chars generalizing current with
  | nil => rfl
  | cons c rest ih =>
    rw [List.forall_mem_cons] at clean
    rw [tokensFrom, if_neg (by simp [clean.1]), ih clean.2]
    simp

theorem tokens_append (hc : isSeparator c) (s u : String) :
    tokens (s ++ String.singleton c ++ u) = tokens s ++ tokens u := by
  unfold tokens
  rw [← tokensFrom_append_cons hc]
  simp

theorem tokens_of_clean (filled : s ≠ "") (clean : ∀ c ∈ s.toList, isSeparator c = false) :
    tokens s = [s] := by
  unfold tokens
  rw [tokensFrom_of_clean clean]
  simp [closeToken, filled]

def IsGap (s : String) : Prop := ∀ c ∈ s.toList, isSeparator c

theorem tokensFrom_gap_append (gap : ∀ c ∈ chars, isSeparator c) (rest : List Char) :
    tokensFrom [] [] (chars ++ rest) = tokensFrom [] [] rest := by
  induction chars with
  | nil => rfl
  | cons c chars ih =>
    rw [List.forall_mem_cons] at gap
    rw [List.cons_append, tokensFrom, if_pos gap.1]
    exact ih gap.2

theorem tokens_gap_append (h : IsGap gap) (s : String) : tokens (gap ++ s) = tokens s := by
  unfold tokens
  rw [String.toList_append]
  exact tokensFrom_gap_append h _

theorem tokens_append_gap_append (h : IsGap gap) (filled : gap ≠ "") (s u : String) :
    tokens (s ++ gap ++ u) = tokens s ++ tokens u := by
  unfold tokens
  cases chars : gap.toList with
  | nil => simp_all
  | cons c rest =>
    rw [IsGap, chars, List.forall_mem_cons] at h
    simp only [String.toList_append, chars, List.append_assoc, List.cons_append]
    rw [tokensFrom_append_cons h.1, tokensFrom_gap_append h.2]

theorem tokens_append_gap (h : IsGap gap) (s : String) : tokens (s ++ gap) = tokens s := by
  by_cases filled : gap = ""
  · rw [filled, String.append_empty]
  · rw [← String.append_empty (s := s ++ gap), tokens_append_gap_append h filled]
    exact List.append_nil _

structure Stretch where
  before : List Char
  chars : List Char
  after : List Char

namespace Stretch

/-- The stretch has no separator in it, and ends on both sides at a separator or at the end of the
text. -/
structure IsToken (x : Stretch) (text : List Char) : Prop where
  whole : x.before ++ x.chars ++ x.after = text
  filled : x.chars ≠ []
  clean : ∀ c ∈ x.chars, isSeparator c = false
  opens : ∀ c ∈ x.before.getLast?, isSeparator c
  closes : ∀ c ∈ x.after.head?, isSeparator c

def extend (x : Stretch) (rest : List Char) : Stretch := { x with after := x.after ++ rest }

def shift (x : Stretch) (front : List Char) : Stretch := { x with before := front ++ x.before }

namespace IsToken

theorem extend {x : Stretch} (h : x.IsToken text) (hc : isSeparator c) :
    (x.extend (c :: rest)).IsToken (text ++ c :: rest) where
  whole := by simp [Stretch.extend, ← h.whole]
  filled := h.filled
  clean := h.clean
  opens := h.opens
  closes := by
    intro d hd
    cases after : x.after with
    | nil =>
      simp [Stretch.extend, after] at hd
      exact hd ▸ hc
    | cons e after₁ =>
      apply h.closes
      simpa [Stretch.extend, after] using hd

theorem shift {x : Stretch} (h : x.IsToken text) (hc : isSeparator c) :
    (x.shift (front ++ [c])).IsToken (front ++ c :: text) where
  whole := by simp [Stretch.shift, ← h.whole]
  filled := h.filled
  clean := h.clean
  opens := by
    intro d hd
    cases last : x.before.getLast? with
    | none =>
      simp [Stretch.shift, List.getLast?_cons, last] at hd
      exact hd ▸ hc
    | some e =>
      apply h.opens
      simpa [Stretch.shift, List.getLast?_cons, last] using hd
  closes := h.closes

theorem of_append_cons {x : Stretch} (h : x.IsToken (text ++ c :: rest)) (hc : isSeparator c) :
    (∃ y : Stretch, y.IsToken text ∧ x = y.extend (c :: rest)) ∨
      ∃ y : Stretch, y.IsToken rest ∧ x = y.shift (text ++ [c]) := by
  obtain ⟨before, chars, after⟩ := x
  obtain ⟨whole, filled, clean, opens, closes⟩ := h
  dsimp only at *
  have apart : c ∉ chars := by
    intro member
    simp [clean c member] at hc
  rcases List.append_eq_append_iff.1 whole with ⟨gap, rfl, rfl⟩ | ⟨_ | ⟨d, gap⟩, same, split⟩
  · refine .inl ⟨⟨before, chars, gap⟩, ⟨rfl, filled, clean, opens, fun d hd => ?_⟩, rfl⟩
    exact closes d (List.mem_head?_append_of_mem_head? hd)
  · subst split
    rw [List.append_nil] at same
    exact .inl ⟨⟨before, chars, []⟩, ⟨by simpa using same, filled, clean, opens, by simp⟩, rfl⟩
  · obtain ⟨rfl, rfl⟩ := List.cons.inj split
    -- The separator cannot stand in the token, so it stands before it.
    rcases List.append_eq_append_iff.1 same with ⟨front, rfl, rfl⟩ | ⟨_ | ⟨d, front⟩, rfl, split₁⟩
    · simp at apart
    · cases (split₁ : _ = chars)
      simp at apart
    · obtain ⟨rfl, rfl⟩ := List.cons.inj split₁
      refine .inr ⟨⟨front, chars, after⟩, ⟨rfl, filled, clean, fun d hd => ?_, closes⟩, ?_⟩
      · apply opens
        simp [List.getLast?_cons, Option.mem_def.1 hd]
      · simp [Stretch.shift]

end IsToken

end Stretch

def ListsTokens (text : List Char) (found : List String) : Prop :=
  ∃ stretches : List Stretch, (∀ x, x ∈ stretches ↔ x.IsToken text) ∧
    stretches.Pairwise (·.before.length < ·.before.length) ∧
    found = stretches.map fun x => String.ofList x.chars

namespace ListsTokens

theorem nil : ListsTokens [] [] := by
  refine ⟨[], fun x => ?_, .nil, rfl⟩
  simp only [List.not_mem_nil, false_iff]
  intro token
  have empty := token.whole
  simp [token.filled] at empty

theorem of_clean (filled : text ≠ []) (clean : ∀ c ∈ text, isSeparator c = false) :
    ListsTokens text [String.ofList text] := by
  refine ⟨[⟨[], text, []⟩], fun x => ?_, List.pairwise_singleton .., rfl⟩
  rw [List.mem_singleton]
  constructor
  · rintro rfl
    exact ⟨by simp, filled, clean, by simp, by simp⟩
  · rintro ⟨rfl, -, -, opens, closes⟩
    have before : x.before = [] := by
      rw [← List.getLast?_eq_none_iff, Option.eq_none_iff_forall_not_mem]
      intro c last
      have member := List.mem_of_getLast? last
      simpa [clean c (by simp [member])] using opens c last
    have after : x.after = [] := by
      rw [← List.head?_eq_none_iff, Option.eq_none_iff_forall_not_mem]
      intro c first
      have member := List.mem_of_head? first
      simpa [clean c (by simp [member])] using closes c first
    obtain ⟨before₁, chars, after₁⟩ := x
    subst before after
    simp

theorem append (h : ListsTokens text found) (h₁ : ListsTokens rest found₁)
    (hc : isSeparator c) : ListsTokens (text ++ c :: rest) (found ++ found₁) := by
  obtain ⟨stretches, members, sorted, rfl⟩ := h
  obtain ⟨stretches₁, members₁, sorted₁, rfl⟩ := h₁
  refine ⟨stretches.map (·.extend (c :: rest)) ++ stretches₁.map (·.shift (text ++ [c])), ?_, ?_,
    ?_⟩
  · intro x
    simp only [List.mem_append, List.mem_map, members, members₁]
    constructor
    · rintro (⟨y, token, rfl⟩ | ⟨y, token, rfl⟩)
      · exact token.extend hc
      · exact token.shift hc
    · intro token
      rcases token.of_append_cons hc with ⟨y, token₁, rfl⟩ | ⟨y, token₁, rfl⟩
      · exact .inl ⟨y, token₁, rfl⟩
      · exact .inr ⟨y, token₁, rfl⟩
  · rw [List.pairwise_append, List.pairwise_map, List.pairwise_map]
    refine ⟨sorted, sorted₁.imp ?_, ?_⟩
    · intro x y lt
      simpa [Stretch.shift] using lt
    · simp only [List.mem_map, forall_exists_index, and_imp, forall_apply_eq_imp_iff₂, members]
      intro x token y _
      have inside := congrArg List.length token.whole
      simp only [List.length_append] at inside
      simp only [Stretch.extend, Stretch.shift, List.length_append, List.length_singleton]
      omega
  · rw [List.map_append, List.map_map, List.map_map]
    rfl

theorem unique (h : ListsTokens text found) (h₁ : ListsTokens text found₁) : found = found₁ := by
  obtain ⟨stretches, members, sorted, rfl⟩ := h
  obtain ⟨stretches₁, members₁, sorted₁, rfl⟩ := h₁
  have irrefl : Std.Irrefl fun x y : Stretch => x.before.length < y.before.length :=
    ⟨fun x => Nat.lt_irrefl _⟩
  have asymm : Std.Asymm fun x y : Stretch => x.before.length < y.before.length :=
    ⟨fun x y => Nat.lt_asymm⟩
  rw [sorted.eq_of_mem_iff sorted₁ fun x => (members x).trans (members₁ x).symm]

end ListsTokens

theorem listsTokens_tokensFrom (text : List Char) : ListsTokens text (tokensFrom [] [] text) := by
  -- A text is cut at any of its separators.
  induction length : text.length using Nat.strong_induction_on generalizing text with
  | _ n ih =>
    subst length
    by_cases cut : ∃ c ∈ text, isSeparator c
    · obtain ⟨c, member, hc⟩ := cut
      obtain ⟨front, rest, rfl⟩ := List.append_of_mem member
      rw [tokensFrom_append_cons hc]
      exact (ih _ (by simp) front rfl).append (ih _ (by simp; omega) rest rfl) hc
    · have clean : ∀ c ∈ text, isSeparator c = false := by simpa using cut
      rw [tokensFrom_of_clean clean]
      cases text with
      | nil => exact .nil
      | cons c rest => simpa [closeToken] using ListsTokens.of_clean (by simp) clean

end WordMachine.Text
