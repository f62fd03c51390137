import WordMachine.Program
import WordMachine.Proofs.Text.Quoted
import WordMachine.Proofs.Word.Listing

namespace WordMachine

open Text Word

namespace Batch

def complaint (bad : BadToken) : Fault := .input (.notInteger bad.token)

theorem ofToken_eq_parseToken (token : String) (position : Nat) :
    ofToken token = (Listing.parseToken token position).mapError complaint := by
  unfold ofToken Listing.parseToken
  cases Word.parse token <;> rfl

theorem mapM_ofToken (start : Nat) (found : List String) :
    found.mapM ofToken = (Listing.parseFrom start found).mapError complaint := by
  induction found generalizing start with
  | nil => rfl
  | cons token found ih =>
    rw [List.mapM_cons, Listing.parseFrom_cons, ofToken_eq_parseToken token start, ih (start + 1)]
    cases Listing.parseToken token start with
    | error bad => rfl
    | ok w => cases Listing.parseFrom (start + 1) found <;> rfl

theorem ofText_eq_parse (s : String) : ofText s = (Listing.parse s).mapError complaint :=
  mapM_ofToken 0 (tokens s)

theorem ofText_eq_ok_iff : ofText s = .ok words ↔ Listing.parse s = .ok words := by
  rw [ofText_eq_parse]
  cases Listing.parse s <;> simp [Except.mapError]

theorem ofText_eq_error_iff :
    ofText s = .error cause ↔
      ∃ bad, Listing.parse s = .error bad ∧ cause = .input (.notInteger bad.token) := by
  rw [ofText_eq_parse]
  cases Listing.parse s <;> simp [Except.mapError, complaint, eq_comm]

theorem ofText_eq_notInteger_iff :
    ofText s = .error (.input (.notInteger token)) ↔
      ∃ position, Listing.parse s = .error ⟨token, position⟩ := by
  rw [ofText_eq_error_iff]
  constructor
  · rintro ⟨bad, parsed, ⟨⟩⟩
    exact ⟨bad.position, parsed⟩
  · rintro ⟨position, parsed⟩
    exact ⟨_, parsed, rfl⟩

theorem ofText_append (hc : isSeparator c) (s u : String) :
    ofText (s ++ String.singleton c ++ u) = do
      let words ← ofText s
      let words₁ ← ofText u
      return words ++ words₁ := by
  rw [ofText_eq_parse, ofText_eq_parse, ofText_eq_parse, Listing.parse_append hc]
  cases Listing.parse s <;> cases Listing.parse u <;> rfl

end Batch

namespace Program

theorem ofText_eq_ok_iff :
    ofText s = .ok words ↔ words ≠ [] ∧ Listing.parse s = .ok words := by
  rw [ofText]
  rcases Listing.parse s with _ | _ | ⟨w, rest⟩ <;> simp
  rintro rfl
  exact List.cons_ne_nil _ _

theorem ofText_eq_badToken_iff :
    ofText s = .error (.badToken bad) ↔ Listing.parse s = .error bad := by
  rw [ofText]
  rcases Listing.parse s with _ | _ | ⟨w, rest⟩ <;> simp

theorem ofText_eq_empty_iff : ofText s = .error .empty ↔ Listing.parse s = .ok [] := by
  rw [ofText]
  rcases Listing.parse s with _ | _ | ⟨w, rest⟩ <;> simp

/-- The texts that are programs, and what is wrong with those that are not. The tokens are the
longest stretches of the text without a separator. -/
theorem ofText_accepts_grammar (s : String) :
    ∃ found, (∀ found₁, ListsTokens s.toList found₁ ↔ found₁ = found) ∧
      (∀ words, ofText s = .ok words ↔
        found ≠ [] ∧ List.Forall₂ (fun token w => IsNumeral w token.toList) found words) ∧
      ((∃ bad, ofText s = .error (.badToken bad)) ↔
        ∃ token ∈ found, ∀ w, ¬IsNumeral w token.toList) ∧
      (∀ bad, ofText s = .error (.badToken bad) ↔
        IsLeast {i | ∃ token, found[i]? = some token ∧ ∀ w, ¬IsNumeral w token.toList}
          bad.position ∧ found[bad.position]? = some bad.token) ∧
      (ofText s = .error .empty ↔ found = []) := by
  have listed : ListsTokens s.toList (tokens s) := listsTokens_tokensFrom s.toList
  refine ⟨tokens s, fun found₁ => ⟨fun listed₁ => listed₁.unique listed, ?_⟩, fun words => ?_,
    ?_, fun bad => ?_, ?_⟩
  · rintro rfl
    exact listed
  · rw [ofText_eq_ok_iff, Listing.parse_eq_parseFrom, Listing.parseFrom_eq_ok_iff]
    refine and_congr_left fun numerals => ?_
    rw [← List.length_pos_iff, ← List.length_pos_iff, numerals.length_eq]
  · simp only [ofText_eq_badToken_iff]
    exact Listing.exists_parseFrom_eq_error_iff
  · rw [ofText_eq_badToken_iff]
    exact Listing.parseFrom_zero_eq_error_iff
  · rw [ofText_eq_empty_iff, Listing.parse_eq_parseFrom, Listing.parseFrom_eq_ok_iff,
      List.forall₂_nil_right_iff]

/-- Programs and batches are read alike, and both in parts. -/
theorem ofText_agrees_with_batch (s : String) :
    (∀ words, (words ≠ [] ∧ Batch.ofText s = .ok words) ↔ ofText s = .ok words) ∧
      (Batch.ofText s = .ok [] ↔ ofText s = .error .empty) ∧
      (∀ token, Batch.ofText s = .error (.input (.notInteger token)) ↔
        ∃ position, ofText s = .error (.badToken ⟨token, position⟩)) ∧
      (∀ token, (∃ violation, Batch.ofText s = .error (.input violation) ∧
          violation.message = quote token ++ " is not an integer") ↔
        ∃ position, ofText s = .error (.badToken ⟨token, position⟩)) ∧
      ∀ u c, isSeparator c →
        (Batch.ofText (s ++ String.singleton c ++ u) = do
          let words ← Batch.ofText s
          let words₁ ← Batch.ofText u
          return words ++ words₁) ∧
        ∀ bad, ofText (s ++ String.singleton c ++ u) = .error (.badToken bad) ↔
          ofText s = .error (.badToken bad) ∨
            (∀ bad₁, ofText s ≠ .error (.badToken bad₁)) ∧
              ∃ position, ofText u = .error (.badToken ⟨bad.token, position⟩) ∧
                bad.position = (tokens s).length + position := by
  simp only [ne_eq, ofText_eq_badToken_iff]
  refine ⟨fun words => ?_, ?_, fun token => Batch.ofText_eq_notInteger_iff, fun token => ?_,
    fun u c hc => ⟨Batch.ofText_append hc s u, fun bad => Listing.parse_append_eq_error_iff hc⟩⟩
  · rw [ofText_eq_ok_iff, Batch.ofText_eq_ok_iff]
  · rw [ofText_eq_empty_iff, Batch.ofText_eq_ok_iff]
  · rw [← Batch.ofText_eq_notInteger_iff]
    constructor
    · rintro ⟨violation, failed, quoted⟩
      obtain ⟨bad, -, cause⟩ := Batch.ofText_eq_error_iff.1 failed
      obtain rfl := Fault.input.inj cause
      have same : bad.token = token := quote_inj.1 ((String.append_left_inj _).1 quoted)
      rw [failed, same]
    · intro failed
      exact ⟨_, failed, rfl⟩

end Program

end WordMachine
