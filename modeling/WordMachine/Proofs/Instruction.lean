import Mathlib.Algebra.BigOperators.Fin
import Mathlib.Tactic.IntervalCases
import WordMachine.Proofs.Machine.Simulation

namespace WordMachine

open IdealMachine (digit)

namespace Opcode

theorem ofCode?_eq_some_iff {code : Word} {opcode : Opcode} :
    ofCode? code = some opcode ↔ opcode.code = code := by
  constructor
  · intro h
    unfold ofCode? at h
    rw [← Int64.toInt_inj]
    split at h <;> cases h <;> simp only [*] <;> rfl
  · rintro rfl
    exact ofCode?_code opcode

theorem code_inj {opcode opcode₁ : Opcode} : opcode.code = opcode₁.code ↔ opcode = opcode₁ := by
  rw [← ofCode?_eq_some_iff, ofCode?_code, Option.some_inj, eq_comm]

theorem code_pos_lt (opcode : Opcode) : 0 < opcode.code.toInt ∧ opcode.code.toInt < 100 := by
  cases opcode <;> decide

theorem arity_le_three (opcode : Opcode) : opcode.arity ≤ 3 := by
  cases opcode <;> decide

theorem lt_arity_of_target? {opcode : Opcode} (h : opcode.target? = some index) :
    index < opcode.arity := by
  cases opcode <;> cases h <;> decide

end Opcode

namespace Mode

theorem ofDigit?_eq_some_iff {digit : Word} {mode : Mode} :
    ofDigit? digit = some mode ↔ mode.digit = digit := by
  constructor
  · intro h
    unfold ofDigit? at h
    rw [← Int64.toInt_inj]
    split at h <;> cases h <;> simp only [*] <;> rfl
  · rintro rfl
    exact ofDigit?_digit mode

theorem digit_inj {mode mode₁ : Mode} : mode.digit = mode₁.digit ↔ mode = mode₁ := by
  rw [← ofDigit?_eq_some_iff, ofDigit?_digit, Option.some_inj, eq_comm]

theorem digit_nonneg_lt (mode : Mode) : 0 ≤ mode.digit.toInt ∧ mode.digit.toInt < 10 := by
  cases mode <;> decide

theorem exists_eq_toInt_digit_iff {n : Nat} :
    (∃ mode : Mode, (n : Int) = mode.digit.toInt) ↔ n ∈ [0, 1, 2] := by
  constructor
  · rintro ⟨mode, named⟩
    cases mode <;> simp only [digit, Int64.reduceToInt] at named <;> simp <;> omega
  · intro named
    simp only [List.mem_cons, List.not_mem_nil, or_false] at named
    rcases named with rfl | rfl | rfl
    · exact ⟨.position, rfl⟩
    · exact ⟨.immediate, rfl⟩
    · exact ⟨.relative, rfl⟩

end Mode

namespace Instruction

/-- The parameters that an operation does not have are in position mode, and the one that it writes
through is not immediate. -/
def IsCanonical (i : Instruction) : Prop :=
  ∀ index : Fin 3, (i.opcode.arity ≤ index → i.mode index = .position) ∧
    (i.opcode.target? = some (index : Nat) → i.mode index ≠ .immediate)

instance (i : Instruction) : Decidable i.IsCanonical :=
  inferInstanceAs (Decidable (∀ _ : Fin 3, _ ∧ _))

/-- The digit of a parameter is no mode for it: it is no mode at all, or it would have the operation
write through an immediate parameter. -/
def Refuses (opcode : Opcode) (word : Int) (index : Fin 3) : Prop :=
  index < opcode.arity ∧
    (digit word (index + 2) ∉ [0, 1, 2] ∨
      digit word (index + 2) = 1 ∧ opcode.target? = some (index : Nat))

instance (opcode : Opcode) (word : Int) (index : Fin 3) :
    Decidable (Refuses opcode word index) :=
  inferInstanceAs (Decidable (_ ∧ _))

theorem toInt_encode (i : Instruction) :
    i.encode.toInt = i.opcode.code.toInt +
      ∑ index : Fin 3, (i.mode index).digit.toInt * 10 ^ ((index : Nat) + 2) := by
  obtain ⟨opcode, first, second, third⟩ := i
  rw [Fin.sum_univ_three]
  cases opcode <;> cases first <;> cases second <;> cases third <;> rfl

theorem toInt_emod_hundred {word : Word} (h : 0 ≤ word.toInt) :
    (word % 100).toInt = word.toInt % 100 := by
  rw [Int64.toInt_mod]
  exact Int.tmod_eq_emod_of_nonneg h

theorem pos_of_code_eq {word : Word} {opcode : Opcode} (h : opcode.code = word % 100) :
    0 < word.toInt := by
  have known : IdealMachine.opcode? (word.toInt.tmod 100) = some opcode := by
    have table := Opcode.ofCode?_eq_some_iff.2 h
    unfold Opcode.ofCode? at table
    rwa [Int64.toInt_mod] at table
  have nonneg := nonneg_of_opcode? known
  have code : word.toInt ≠ 0 := by
    intro zero
    rw [zero] at known
    cases known
  omega

theorem toInt_digit_mode_eq_zero {i : Instruction}
    (beyond : ∀ index : Fin 3, i.opcode.arity ≤ index → i.mode index = .position) (index : Fin 3)
    (unused : i.opcode.arity ≤ index) : (i.mode index).digit.toInt = 0 := by
  rw [beyond index unused]
  rfl

theorem emod_eq_encode_iff {n : Int} (nonneg : 0 ≤ n) {i : Instruction}
    (beyond : ∀ index : Fin 3, i.opcode.arity ≤ index → i.mode index = .position) :
    n % 10 ^ (2 + i.opcode.arity) = i.encode.toInt ↔
      i.opcode.code.toInt = n % 100 ∧
        ∀ index : Fin 3, index < i.opcode.arity →
          (digit n (index + 2) : Int) = (i.mode index).digit.toInt := by
  obtain ⟨n, rfl⟩ := Int.eq_ofNat_of_zero_le nonneg
  have code := i.opcode.code_pos_lt
  have digits (index : Fin 3) := (i.mode index).digit_nonneg_lt
  have unused := toInt_digit_mode_eq_zero beyond
  have bound := i.opcode.arity_le_three
  rw [toInt_encode, Fin.sum_univ_three]
  simp only [Fin.forall_fin_succ, IsEmpty.forall_iff, and_true] at digits unused ⊢
  generalize i.opcode.arity = arity at *
  interval_cases arity <;> simp [digit] at * <;> omega

theorem encode_pos_lt {i : Instruction}
    (beyond : ∀ index : Fin 3, i.opcode.arity ≤ index → i.mode index = .position) :
    0 < i.encode.toInt ∧ i.encode.toInt < 10 ^ (2 + i.opcode.arity) := by
  have code := i.opcode.code_pos_lt
  have digits (index : Fin 3) := (i.mode index).digit_nonneg_lt
  have unused := toInt_digit_mode_eq_zero beyond
  have bound := i.opcode.arity_le_three
  rw [toInt_encode, Fin.sum_univ_three]
  simp only [Fin.forall_fin_succ, IsEmpty.forall_iff, and_true] at digits unused
  generalize i.opcode.arity = arity at *
  interval_cases arity <;> simp at * <;> omega

theorem decodeMode_eq_ok_iff {word : Word} (nonneg : 0 ≤ word.toInt) {opcode : Opcode}
    {index : Fin 3} {mode : Mode} :
    decodeMode opcode word address index = .ok mode ↔
      (index < opcode.arity → (digit word.toInt (index + 2) : Int) = mode.digit.toInt) ∧
        (opcode.arity ≤ index → mode = .position) ∧
        (opcode.target? = some (index : Nat) → mode ≠ .immediate) := by
  unfold decodeMode
  by_cases used : index < opcode.arity
  · rw [if_pos used, ← toInt_modeDigit nonneg, Int64.toInt_inj]
    cases known : Mode.ofDigit? (modeDigit word index) with
    | none =>
      have other : modeDigit word index ≠ mode.digit := by
        intro same
        simp [same] at known
      simp [used, other]
    | some mode₁ =>
      rw [← Mode.ofDigit?_eq_some_iff.1 known, Mode.digit_inj]
      by_cases refused : mode₁ = .immediate ∧ opcode.target? = some (index : Nat)
      · obtain ⟨rfl, target⟩ := refused
        simp [used, target, eq_comm]
      · simp only [refused]
        grind
  · have target : opcode.target? ≠ some (index : Nat) :=
      fun h => used (Opcode.lt_arity_of_target? h)
    rw [if_neg used]
    simp [used, target, Nat.le_of_not_lt used, eq_comm]

theorem exists_decodeMode_iff {word : Word} (nonneg : 0 ≤ word.toInt) {opcode : Opcode}
    {index : Fin 3} :
    (∃ mode, decodeMode opcode word address index = .ok mode) ↔
      ¬Refuses opcode word.toInt index := by
  simp only [decodeMode_eq_ok_iff nonneg]
  constructor
  · rintro ⟨mode, named, -, writable⟩ ⟨used, unnamed | ⟨one, target⟩⟩
    · exact unnamed (Mode.exists_eq_toInt_digit_iff.1 ⟨mode, named used⟩)
    · have immediate : Mode.immediate.digit.toInt = mode.digit.toInt := by
        rw [← named used, one]
        rfl
      exact writable target (Mode.digit_inj.1 (Int64.toInt_inj.1 immediate)).symm
  · intro accepted
    by_cases used : index < opcode.arity
    · simp only [Refuses, used, true_and, not_or, not_not] at accepted
      obtain ⟨mode, named⟩ := Mode.exists_eq_toInt_digit_iff.2 accepted.1
      refine ⟨mode, fun _ => named, by omega, ?_⟩
      rintro target rfl
      exact accepted.2 ⟨Int.natCast_inj.1 named, target⟩
    · exact ⟨.position, by simp [used]⟩

theorem cause_of_decodeMode {opcode : Opcode}
    (h : decodeMode opcode word address index = .error cause) :
    cause = .invalidMode (modeDigit word index) address := by
  unfold decodeMode at h
  grind

theorem decode_of_forall_code_ne (address : Nat)
    (unknown : ∀ opcode : Opcode, opcode.code ≠ word % 100) :
    decode word address = .error (.unknownOpcode (word % 100) address) := by
  cases known : Opcode.ofCode? (word % 100) with
  | none => rw [decode, known]
  | some opcode => exact absurd (Opcode.ofCode?_eq_some_iff.1 known) (unknown opcode)

theorem decode_of_code_eq {opcode : Opcode} (address : Nat) (known : opcode.code = word % 100) :
    decode word address = do
      let first ← decodeMode opcode word address 0
      let second ← decodeMode opcode word address 1
      let third ← decodeMode opcode word address 2
      return { opcode, first, second, third } := by
  rw [decode, Opcode.ofCode?_eq_some_iff.2 known]

theorem decode_cases {opcode : Opcode} (address : Nat) (known : opcode.code = word % 100) :
    (∃ i, decode word address = .ok i ∧ i.opcode = opcode ∧
        ∀ index : Fin 3, decodeMode opcode word address index = .ok (i.mode index)) ∨
      ∃ (index : Fin 3) (cause : Fault), decode word address = .error cause ∧
        decodeMode opcode word address index = .error cause ∧
        ∀ earlier < index, ∃ mode, decodeMode opcode word address earlier = .ok mode := by
  rw [decode_of_code_eq address known]
  cases first : decodeMode opcode word address 0 with
  | error cause => exact .inr ⟨0, cause, rfl, first, by simp⟩
  | ok mode =>
    cases second : decodeMode opcode word address 1 with
    | error cause =>
      refine .inr ⟨1, cause, rfl, second, fun earlier less => ?_⟩
      obtain rfl : earlier = 0 := by omega
      exact ⟨mode, first⟩
    | ok mode₁ =>
      cases third : decodeMode opcode word address 2 with
      | error cause =>
        exact .inr ⟨2, cause, rfl, third, by simp [Fin.forall_fin_succ, first, second]⟩
      | ok mode₂ =>
        refine .inl ⟨⟨opcode, mode, mode₁, mode₂⟩, rfl, rfl, ?_⟩
        rw [Fin.forall_fin_succ, Fin.forall_fin_two]
        exact ⟨first, second, third⟩

theorem ext_mode {i i₁ : Instruction} (opcode : i.opcode = i₁.opcode)
    (modes : ∀ index, i.mode index = i₁.mode index) : i = i₁ := by
  obtain ⟨opcode, first, second, third⟩ := i
  obtain ⟨opcode₁, first₁, second₁, third₁⟩ := i₁
  cases opcode
  cases modes 0
  cases modes 1
  cases modes 2
  rfl

theorem decode_eq_ok_iff_decodeMode {i : Instruction} :
    decode word address = .ok i ↔
      i.opcode.code = word % 100 ∧
        ∀ index : Fin 3, decodeMode i.opcode word address index = .ok (i.mode index) := by
  constructor
  · intro decoded
    by_cases known : ∃ opcode : Opcode, opcode.code = word % 100
    · obtain ⟨opcode, known⟩ := known
      rcases decode_cases address known with ⟨i₁, decoded₁, rfl, modes⟩ | ⟨-, cause, failed, -⟩
      · cases decoded.symm.trans decoded₁
        exact ⟨known, modes⟩
      · cases decoded.symm.trans failed
    · rw [decode_of_forall_code_ne address (not_exists.1 known)] at decoded
      cases decoded
  · rintro ⟨known, modes⟩
    rcases decode_cases address known with
      ⟨i₁, decoded, same, modes₁⟩ | ⟨index, cause, -, failed, -⟩
    · have agree (index : Fin 3) := Except.ok.inj ((modes₁ index).symm.trans (modes index))
      rw [decoded, ext_mode same agree]
    · cases (modes index).symm.trans failed

theorem decode_eq_ok_iff {i : Instruction} :
    decode word address = .ok i ↔
      0 < word.toInt ∧ i.IsCanonical ∧
        word.toInt % 10 ^ (2 + i.opcode.arity) = i.encode.toInt := by
  rw [decode_eq_ok_iff_decodeMode]
  constructor
  · rintro ⟨known, modes⟩
    have pos := pos_of_code_eq known
    simp only [decodeMode_eq_ok_iff pos.le] at modes
    refine ⟨pos, fun index => (modes index).2, ?_⟩
    rw [emod_eq_encode_iff pos.le fun index => (modes index).2.1, known, toInt_emod_hundred pos.le]
    exact ⟨rfl, fun index => (modes index).1⟩
  · rintro ⟨pos, canonical, code⟩
    rw [emod_eq_encode_iff pos.le fun index => (canonical index).1, ← toInt_emod_hundred pos.le,
      Int64.toInt_inj] at code
    refine ⟨code.1, fun index => ?_⟩
    rw [decodeMode_eq_ok_iff pos.le]
    exact ⟨code.2 index, canonical index⟩

theorem decode_eq_error_iff {opcode : Opcode} (known : opcode.code = word % 100) :
    decode word address = .error cause ↔
      ∃ index : Fin 3, Refuses opcode word.toInt index ∧
        (∀ earlier < index, ¬Refuses opcode word.toInt earlier) ∧
        cause = .invalidMode (modeDigit word index) address := by
  have nonneg := (pos_of_code_eq known).le
  rcases decode_cases address known with
    ⟨i, decoded, -, modes⟩ | ⟨index, cause₁, failed, refused, first⟩
  · rw [decoded]
    simp only [reduceCtorEq, false_iff, not_exists]
    rintro index ⟨refused, -⟩
    exact (exists_decodeMode_iff nonneg).1 ⟨_, modes index⟩ refused
  · have refused₁ : Refuses opcode word.toInt index := by
      by_contra accepted
      obtain ⟨mode, decoded⟩ := (exists_decodeMode_iff nonneg).2 accepted
      cases decoded.symm.trans refused
    simp only [exists_decodeMode_iff nonneg] at first
    rw [failed, Except.error.injEq, cause_of_decodeMode refused]
    constructor
    · rintro rfl
      exact ⟨index, refused₁, first, rfl⟩
    · rintro ⟨index₁, refused₂, first₁, rfl⟩
      rcases lt_trichotomy index index₁ with before | rfl | after
      · exact absurd refused₁ (first₁ index before)
      · rfl
      · exact absurd refused₂ (first index₁ after)

theorem digit_eq_of_emod_eq {n n₁ : Int} (nonneg : 0 ≤ n) (nonneg₁ : 0 ≤ n₁)
    (h : n % 10 ^ k = n₁ % 10 ^ k) (below : place < k) : digit n place = digit n₁ place := by
  obtain ⟨n, rfl⟩ := Int.eq_ofNat_of_zero_le nonneg
  obtain ⟨n₁, rfl⟩ := Int.eq_ofNat_of_zero_le nonneg₁
  have same : n % 10 ^ (place + 1) = n₁ % 10 ^ (place + 1) := by
    have divides : 10 ^ (place + 1) ∣ 10 ^ k := pow_dvd_pow 10 below
    rw [← Nat.mod_mod_of_dvd n divides, ← Nat.mod_mod_of_dvd n₁ divides]
    exact_mod_cast congrArg (· % 10 ^ (place + 1)) (by exact_mod_cast h : n % 10 ^ k = n₁ % 10 ^ k)
  simp only [digit, Int.natAbs_natCast, ← Nat.mod_mul_right_div_self, ← pow_succ, same]

theorem decode_eq_of_emod_eq {word word₁ : Word} {opcode : Opcode} (pos : 0 < word.toInt)
    (pos₁ : 0 < word₁.toInt) (known : opcode.code.toInt = word.toInt % 100)
    (h : word.toInt % 10 ^ (2 + opcode.arity) = word₁.toInt % 10 ^ (2 + opcode.arity)) :
    decode word address = decode word₁ address := by
  rw [← toInt_emod_hundred pos.le, Int64.toInt_inj] at known
  have code : word % 100 = word₁ % 100 := by
    have divides : (100 : Int) ∣ 10 ^ (2 + opcode.arity) := pow_dvd_pow 10 (Nat.le_add_right 2 _)
    rw [← Int64.toInt_inj, toInt_emod_hundred pos.le, toInt_emod_hundred pos₁.le,
      ← Int.emod_emod_of_dvd _ divides, h, Int.emod_emod_of_dvd _ divides]
  have modes (index : Fin 3) :
      decodeMode opcode word address index = decodeMode opcode word₁ address index := by
    unfold decodeMode
    split
    case isTrue used =>
      have same : modeDigit word index = modeDigit word₁ index := by
        rw [← Int64.toInt_inj, toInt_modeDigit pos.le, toInt_modeDigit pos₁.le,
          digit_eq_of_emod_eq pos.le pos₁.le h (by omega)]
      rw [same]
    case isFalse => rfl
  have first : decodeMode opcode word address 0 = decodeMode opcode word₁ address 0 := modes 0
  have second : decodeMode opcode word address 1 = decodeMode opcode word₁ address 1 := modes 1
  have third : decodeMode opcode word address 2 = decodeMode opcode word₁ address 2 := modes 2
  rw [decode_of_code_eq address known, decode_of_code_eq address (known.trans code), first, second,
    third]

/-- A word decodes to an instruction just if the instruction is canonical and its code stands at the
end of the word, before which other digits may stand. A word that does not decode is refused for an
unknown operation or, if the operation is known, for the first parameter that has a bad digit. -/
theorem decode_inverts_encode (word : Word) (address : Nat) :
    (∀ i : Instruction, decode word address = .ok i ↔
      0 < word.toInt ∧ i.IsCanonical ∧
        word.toInt % 10 ^ (2 + i.opcode.arity) = i.encode.toInt) ∧
    (∀ i : Instruction, i.encode.toInt = i.opcode.code.toInt +
      ∑ index : Fin 3, (i.mode index).digit.toInt * 10 ^ ((index : Nat) + 2)) ∧
    (∀ i : Instruction, i.IsCanonical → decode i.encode address = .ok i) ∧
    (∀ (opcode : Opcode) (word₁ : Word), opcode.code.toInt = word.toInt % 100 →
      0 < word.toInt → 0 < word₁.toInt →
      word.toInt % 10 ^ (2 + opcode.arity) = word₁.toInt % 10 ^ (2 + opcode.arity) →
        decode word address = decode word₁ address) ∧
    ∀ cause, decode word address = .error cause ↔
      (∃ code : Word, code.toInt = word.toInt.tmod 100 ∧
        (∀ opcode : Opcode, opcode.code ≠ code) ∧ cause = .unknownOpcode code address) ∨
      ∃ (opcode : Opcode) (index : Fin 3) (bad : Word),
        opcode.code.toInt = word.toInt.tmod 100 ∧ Refuses opcode word.toInt index ∧
        (∀ earlier < index, ¬Refuses opcode word.toInt earlier) ∧
        bad.toInt = digit word.toInt (index + 2) ∧ cause = .invalidMode bad address := by
  refine ⟨fun i => decode_eq_ok_iff, toInt_encode, ?_, ?_, fun cause => ?_⟩
  · intro i canonical
    obtain ⟨pos, lt⟩ := encode_pos_lt fun index => (canonical index).1
    rw [decode_eq_ok_iff]
    exact ⟨pos, canonical, Int.emod_eq_of_lt pos.le lt⟩
  · intro opcode word₁ known pos pos₁ h
    exact decode_eq_of_emod_eq pos pos₁ known h
  · have remainder : (word % 100).toInt = word.toInt.tmod 100 := Int64.toInt_mod word 100
    simp only [← remainder, Int64.toInt_inj]
    by_cases known : ∃ opcode : Opcode, opcode.code = word % 100
    · obtain ⟨opcode, known⟩ := known
      rw [decode_eq_error_iff known]
      constructor
      · rintro ⟨index, refused, first, rfl⟩
        exact .inr ⟨opcode, index, modeDigit word index, known, refused, first,
          toInt_modeDigit (pos_of_code_eq known).le index, rfl⟩
      · rintro (⟨code, rfl, unknown, -⟩ | ⟨opcode₁, index, bad, known₁, refused, first, same, rfl⟩)
        · exact absurd known (unknown opcode)
        · cases Opcode.code_inj.1 (known.trans known₁.symm)
          rw [← toInt_modeDigit (pos_of_code_eq known).le, Int64.toInt_inj] at same
          exact ⟨index, refused, first, by rw [same]⟩
    · rw [not_exists] at known
      rw [decode_of_forall_code_ne address known, Except.error.injEq]
      constructor
      · rintro rfl
        exact .inl ⟨word % 100, rfl, known, rfl⟩
      · rintro (⟨code, rfl, -, rfl⟩ | ⟨opcode, -, -, known₁, -⟩)
        · rfl
        · exact absurd known₁ (known opcode)

theorem decode_inverts_encode_overlong :
    decode 9121102 7 = .ok ⟨.multiply, .immediate, .immediate, .relative⟩ ∧
      decode 11302 7 = .error (.invalidMode 3 7) ∧
      decode (-1101) 7 = .error (.unknownOpcode (-1) 7) := by
  refine ⟨?_, ?_, ?_⟩
  · exact ((decode_inverts_encode 9121102 7).1 _).2 (by decide)
  · exact ((decode_inverts_encode 11302 7).2.2.2.2 _).2 (.inr ⟨.multiply, 0, 3, by decide⟩)
  · refine ((decode_inverts_encode (-1101) 7).2.2.2.2 _).2 (.inl ⟨-1, by decide, ?_, rfl⟩)
    intro opcode
    cases opcode <;> decide

end Instruction

end WordMachine
