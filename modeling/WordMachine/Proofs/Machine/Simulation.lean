import WordMachine.Proofs.Machine.Ideal

namespace WordMachine

open IdealMachine (Evaluation Fits)

def Fault.ideal? : Fault → Option IdealMachine.Fault
  | .invalidAddress address => some (.invalidAddress address.toInt)
  | .invalidMode digit address => some (.invalidMode digit.toInt address)
  | .unknownOpcode code address => some (.unknownOpcode code.toInt address)
  | .ranOffImage address => some (.ranOffImage address)
  | .input _ => none
  | .overflow _ => none

def Effect.ideal : Effect → IdealMachine.Effect
  | .store address value => .store address.toInt value.toInt
  | .receive address => .receive address.toInt
  | .emit value => .emit value.toInt
  | .rebase base => .rebase base.toInt
  | .jump target => .jump target
  | .proceed => .proceed
  | .halt => .halt

def Machine.ideal (m : Machine) : IdealMachine where
  ip := m.ip
  relativeBase := m.relativeBase.toInt
  cell i := (m.memory.get i).toInt
  size := m.memory.imageSize
  queue := m.inbox.waiting.map Int64.toInt
  state := m.state

def Step.ideal? : Step → Option IdealMachine.Step
  | .next m emitted => some (.next m.ideal (emitted.map Int64.toInt))
  | .waiting m => some (.waiting m.ideal)
  | .halted m => some (.halted m.ideal)
  | .fault cause m => cause.ideal?.map (.fault · m.ideal)

theorem Step.eq_next_of_ideal? {step : Step} (h : step.ideal? = some (.next s emitted)) :
    ∃ m emitted₁, step = .next m emitted₁ ∧ m.ideal = s := by
  cases step with
  | next m emitted₁ =>
    cases h
    exact ⟨m, emitted₁, rfl, rfl⟩
  | waiting m => cases h
  | halted m => cases h
  | fault cause m => simp [ideal?] at h

/-- An evaluation on words and one on integers, from the instruction at `ip`: both come to the same
result or to the same fault, or the first overflows because a number of the second does not fit. -/
inductive Tracks (ip : Nat) (view : α → β) : Except Fault α → Evaluation β → Prop
  | ok {a : α} {computed : List Int} :
    (∀ n ∈ computed, Fits n) → Tracks ip view (.ok a) ⟨computed, .ok (view a)⟩
  | fault {cause : Fault} {cause₁ : IdealMachine.Fault} {computed : List Int} :
    (∀ n ∈ computed, Fits n) → cause.ideal? = some cause₁ →
      Tracks ip view (.error cause) ⟨computed, .error cause₁⟩
  | overflow {computed : List Int} {result : Except IdealMachine.Fault β} :
    (∃ n ∈ computed, ¬Fits n) → Tracks ip view (.error (.overflow ip)) ⟨computed, result⟩

namespace Tracks

theorem pure (ip : Nat) (view : α → β) (a : α) :
    Tracks ip view (.ok a) (Pure.pure (view a)) := .ok (by simp)

theorem fail {view : α → β} (h : Fault.ideal? cause = some cause₁) :
    Tracks ip view (.error cause) (Evaluation.fail cause₁) := .fault (by simp) h

theorem bind {view : α → β} {view₁ : γ → δ} {x : Except Fault α} {y : Evaluation β}
    {f : α → Except Fault γ} {g : β → Evaluation δ} (h : Tracks ip view x y)
    (next : ∀ a, Tracks ip view₁ (f a) (g (view a))) :
    Tracks ip view₁ (x >>= f) (y >>= g) := by
  cases h with
  | @ok a computed fits =>
    change Tracks ip view₁ (f a) ⟨computed ++ (g (view a)).computed, (g (view a)).result⟩
    have rest := next a
    generalize f a = x₁ at rest
    generalize g (view a) = y₁ at rest
    cases rest with
    | ok fits₁ => exact .ok (by simpa [or_imp, forall_and] using ⟨fits, fits₁⟩)
    | fault fits₁ cause => exact .fault (by simpa [or_imp, forall_and] using ⟨fits, fits₁⟩) cause
    | overflow exceeds =>
      obtain ⟨n, member, large⟩ := exceeds
      exact .overflow ⟨n, by simp [member], large⟩
  | fault fits cause => exact .fault fits cause
  | @overflow computed result exceeds =>
    cases result with
    | error cause => exact .overflow exceeds
    | ok b =>
      obtain ⟨n, member, large⟩ := exceeds
      exact .overflow ⟨n, List.mem_append_left _ member, large⟩

end Tracks

theorem IdealMachine.getElem?_roles (opcode : Opcode) (index : Fin 3) :
    (roles opcode)[(index : Nat)]? =
      if index < opcode.arity then
        some (if opcode.target? = some (index : Nat) then .target else .source)
      else none := by
  revert index
  cases opcode <;> decide

theorem nonneg_of_opcode? {word : Int} (h : IdealMachine.opcode? (word.tmod 100) = some opcode) :
    0 ≤ word := by
  have positive : 0 < word.tmod 100 := by
    unfold IdealMachine.opcode? at h
    split at h <;> simp_all
  by_contra negative
  obtain ⟨n, rfl⟩ : ∃ n, word = -n := ⟨-word, by simp⟩
  have remainder : 0 ≤ n.tmod 100 := Int.tmod_nonneg 100 (by omega)
  rw [Int.neg_tmod] at positive
  omega

theorem toInt_modeDigit {word : Word} (h : 0 ≤ word.toInt) (index : Fin 3) :
    (Instruction.modeDigit word index).toInt = IdealMachine.digit word.toInt (index + 2) := by
  have place : (Instruction.modePlace index).toInt = 10 ^ ((index : Nat) + 2) ∧
      Instruction.modePlace index ≠ -1 := by
    revert index
    decide
  have quotient : (word / Instruction.modePlace index).toInt =
      word.toInt / 10 ^ ((index : Nat) + 2) := by
    rw [Int64.toInt_div_of_ne_right _ _ place.2, place.1, Int.tdiv_eq_ediv_of_nonneg h]
  have remainder : (word / Instruction.modePlace index % 10).toInt =
      word.toInt / 10 ^ ((index : Nat) + 2) % 10 := by
    rw [Int64.toInt_mod, quotient]
    exact Int.tmod_eq_emod_of_nonneg (Int.ediv_nonneg h (Int.pow_nonneg (by decide)))
  obtain ⟨n, magnitude⟩ := Int.eq_ofNat_of_zero_le h
  rw [Instruction.modeDigit, remainder, IdealMachine.digit, magnitude, Int.natAbs_natCast]
  push_cast
  rfl

namespace Machine

theorem tracks_fitting (m : Machine) (n : Int) :
    Tracks m.ip Int64.toInt (m.fitting (Word.ofInt? n)) (.compute n) := by
  cases result : Word.ofInt? n with
  | none =>
    apply Tracks.overflow
    rw [Word.ofInt?_eq_none_iff] at result
    refine ⟨n, by simp, ?_⟩
    unfold Fits
    omega
  | some w =>
    obtain rfl := Word.ofInt?_eq_some_iff.1 result
    apply Tracks.ok
    have := w.le_toInt
    have := w.toInt_lt
    simp only [List.mem_singleton, forall_eq, Fits]
    omega

theorem tracks_read (m : Machine) (a : Word) :
    Tracks m.ip Int64.toInt (m.memory.read a) (m.ideal.load a.toInt) := by
  unfold Memory.read IdealMachine.load
  cases index : Word.index? a with
  | none =>
    rw [Word.index?_eq_none_iff] at index
    rw [if_pos index]
    exact .fail rfl
  | some i =>
    rw [Word.index?_eq_some_iff] at index
    rw [if_neg (by omega), index]
    exact .pure ..

theorem tracks_address (m : Machine) (i : Instruction) (index : Fin 3) :
    Tracks m.ip Int64.toInt (m.address i index) (m.ideal.address (i.mode index) index) := by
  unfold address IdealMachine.address
  cases i.mode index with
  | position => exact .pure ..
  | immediate => exact .fail rfl
  | relative => exact m.tracks_fitting _

theorem tracks_operand (m : Machine) (i : Instruction) (index : Fin 3) :
    Tracks m.ip Int64.toInt (m.operand i index) (m.ideal.operand (i.mode index) index) := by
  unfold operand IdealMachine.operand address
  cases i.mode index with
  | position => exact m.tracks_read _
  | immediate => exact .pure ..
  | relative => exact (m.tracks_fitting _).bind m.tracks_read

theorem tracks_decodeMode (opcode : Opcode) (word : Word) (ip : Nat) (index : Fin 3)
    (h : 0 ≤ word.toInt) :
    Tracks ip id (Instruction.decodeMode opcode word ip index)
      (IdealMachine.decodeMode opcode word.toInt ip index) := by
  unfold Instruction.decodeMode IdealMachine.decodeMode
  rw [IdealMachine.getElem?_roles]
  split
  · have known := toInt_modeDigit h index
    generalize Instruction.modeDigit word index = d at known
    generalize IdealMachine.digit word.toInt (index + 2) = n at known
    have refused : (Fault.invalidMode d ip).ideal? = some (.invalidMode n ip) := by
      simp [Fault.ideal?, known]
    unfold Mode.ofDigit?
    rw [known]
    by_cases target : opcode.target? = some (index : Nat)
    · simp only [target, and_true, if_true]
      match n with
      | 0 => exact .pure ..
      | 1 => exact .fail refused
      | 2 => exact .pure ..
      | n + 3 => exact .fail refused
    · simp only [target, and_false, if_false]
      match n with
      | 0 => exact .pure ..
      | 1 => exact .pure ..
      | 2 => exact .pure ..
      | n + 3 => exact .fail refused
  · exact .pure ..

theorem tracks_decode (word : Word) (ip : Nat) :
    Tracks ip id (Instruction.decode word ip) (IdealMachine.decode word.toInt ip) := by
  have code : (word % 100).toInt = word.toInt.tmod 100 := by
    rw [Int64.toInt_mod]
    rfl
  have table : Opcode.ofCode? (word % 100) = IdealMachine.opcode? (word.toInt.tmod 100) := by
    rw [← code]
    rfl
  unfold Instruction.decode IdealMachine.decode
  rw [table]
  cases known : IdealMachine.opcode? (word.toInt.tmod 100) with
  | none => exact .fail (by simp [Fault.ideal?, code])
  | some opcode =>
    have h := nonneg_of_opcode? known
    exact (tracks_decodeMode opcode word ip 0 h).bind fun _ =>
      (tracks_decodeMode opcode word ip 1 h).bind fun _ =>
        (tracks_decodeMode opcode word ip 2 h).bind fun _ => .pure ..

theorem tracks_fetch (m : Machine) : Tracks m.ip id m.fetch m.ideal.fetch := by
  unfold fetch IdealMachine.fetch
  by_cases inside : m.ip < m.memory.imageSize
  · have inside₁ : m.ideal.ip < m.ideal.size := inside
    rw [if_pos inside, if_pos inside₁]
    exact tracks_decode ..
  · have inside₁ : ¬m.ideal.ip < m.ideal.size := inside
    rw [if_neg inside, if_neg inside₁]
    exact .fail rfl

theorem tracks_branch (m : Machine) {taken : Bool} {condition : Prop} [Decidable condition]
    (h : taken = true ↔ condition) (target : Word) :
    Tracks m.ip Effect.ideal (branch taken target)
      (IdealMachine.branch condition target.toInt) := by
  unfold branch IdealMachine.branch
  by_cases holds : condition
  · rw [if_pos (h.2 holds), if_pos holds]
    cases index : Word.index? target with
    | none =>
      rw [Word.index?_eq_none_iff] at index
      rw [if_pos index]
      exact .fail rfl
    | some i =>
      rw [Word.index?_eq_some_iff] at index
      rw [if_neg (by omega), index]
      exact .pure m.ip Effect.ideal (.jump i)
  · rw [if_neg (mt h.1 holds), if_neg holds]
    exact .pure m.ip Effect.ideal .proceed

theorem tracks_store (m : Machine) (i : Instruction) (index : Fin 3) {value : Word} {n : Int}
    (h : value.toInt = n) :
    Tracks m.ip Effect.ideal
      (do
        let address ← m.address i index
        return .store address value)
      (do
        let address ← m.ideal.address (i.mode index) index
        return .store address n) := by
  subst h
  exact (m.tracks_address i index).bind fun a => .pure m.ip Effect.ideal (.store a value)

theorem tracks_effect (m : Machine) (i : Instruction) :
    Tracks m.ip Effect.ideal (m.effect i) (m.ideal.effect i) := by
  unfold effect IdealMachine.effect
  cases i.opcode with
  | add =>
    exact (m.tracks_operand i 0).bind fun a => (m.tracks_operand i 1).bind fun b =>
      (m.tracks_fitting _).bind fun _ => m.tracks_store i 2 rfl
  | multiply =>
    exact (m.tracks_operand i 0).bind fun a => (m.tracks_operand i 1).bind fun b =>
      (m.tracks_fitting _).bind fun _ => m.tracks_store i 2 rfl
  | input =>
    exact (m.tracks_address i 0).bind fun a => .pure m.ip Effect.ideal (.receive a)
  | output =>
    exact (m.tracks_operand i 0).bind fun a => .pure m.ip Effect.ideal (.emit a)
  | jumpIfTrue =>
    refine (m.tracks_operand i 0).bind fun a => (m.tracks_operand i 1).bind fun b => ?_
    exact m.tracks_branch (by simp [← Int64.toInt_inj]) b
  | jumpIfFalse =>
    refine (m.tracks_operand i 0).bind fun a => (m.tracks_operand i 1).bind fun b => ?_
    exact m.tracks_branch (by simp [← Int64.toInt_inj]) b
  | lessThan =>
    refine (m.tracks_operand i 0).bind fun a => (m.tracks_operand i 1).bind fun b => ?_
    apply m.tracks_store i 2
    by_cases less : a < b <;> simp [Word.ofBool, less, ← Int64.lt_iff_toInt_lt]
  | equals =>
    refine (m.tracks_operand i 0).bind fun a => (m.tracks_operand i 1).bind fun b => ?_
    apply m.tracks_store i 2
    by_cases same : a = b <;> simp [Word.ofBool, same, Int64.toInt_inj]
  | adjustRelativeBase =>
    refine (m.tracks_operand i 0).bind fun a => (m.tracks_fitting _).bind fun b => ?_
    exact .pure m.ip Effect.ideal (.rebase b)
  | halt => exact .pure m.ip Effect.ideal .halt

def evaluate (m : Machine) : Except Fault (Nat × Effect) := do
  let i ← m.fetch
  let effect ← m.effect i
  return (i.width, effect)

theorem tracks_evaluate (m : Machine) :
    Tracks m.ip (Prod.map id Effect.ideal) m.evaluate m.ideal.evaluate := by
  refine m.tracks_fetch.bind fun i => (m.tracks_effect i).bind fun e => ?_
  have width : i.width = 1 + (IdealMachine.roles i.opcode).length := by
    unfold Instruction.width
    cases i.opcode <;> rfl
  rw [width]
  exact .pure m.ip (Prod.map id Effect.ideal) (_, e)

theorem step_eq_evaluate (m : Machine) :
    m.step = match m.evaluate with
      | .error cause => .fault cause m
      | .ok (width, effect) => m.apply width effect := by
  unfold step evaluate
  cases m.fetch with
  | error cause => rfl
  | ok i =>
    cases effect : m.effect i with
    | error cause => simp [bind, Except.bind, effect]
    | ok e => simp [bind, Except.bind, pure, Except.pure, effect]

theorem ideal_set (m : Machine) (address value : Word) (h : address.toInt = (i : Nat)) :
    ({ m with memory := m.memory.set i value } : Machine).ideal =
      m.ideal.set address.toInt value.toInt := by
  have cells : (fun j => ((m.memory.set i value).get j).toInt) =
      Function.update m.ideal.cell i value.toInt := by
    funext j
    rw [Memory.get_set]
    by_cases same : i = j
    · subst same
      simp
    · simp [same, Ne.symm same, ideal]
  simp only [IdealMachine.set, h, Int.toNat_natCast, ← cells]
  simp [ideal, Memory.imageSize]

theorem ideal?_apply_store (m : Machine) (width : Nat) (address value : Word) :
    (m.apply width (.store address value)).ideal? =
      some (m.ideal.apply width (.store address.toInt value.toInt)) := by
  simp only [apply, IdealMachine.apply]
  cases index : Word.index? address with
  | none =>
    rw [Word.index?_eq_none_iff] at index
    rw [if_pos index]
    rfl
  | some i =>
    rw [Word.index?_eq_some_iff] at index
    rw [if_neg (by omega), ← ideal_set m address value index]
    rfl

theorem ideal?_apply (m : Machine) (width : Nat) (effect : Effect) :
    (m.apply width effect).ideal? = some (m.ideal.apply width effect.ideal) := by
  cases effect with
  | store address value => exact m.ideal?_apply_store width address value
  | receive address =>
    have queue : m.ideal.queue = m.inbox.waiting.map Int64.toInt := rfl
    cases waiting : m.inbox.waiting with
    | nil =>
      simp only [apply, IdealMachine.apply, Effect.ideal, Inbox.pop?, queue, waiting, List.map_nil]
      simp [Step.ideal?, ideal, waiting]
    | cons value rest =>
      -- A word that has been received is stored by the machine that is left without it.
      simp only [apply, IdealMachine.apply, Effect.ideal, Inbox.pop?, queue, waiting, List.map_cons]
      exact ideal?_apply_store { m with inbox := ⟨rest⟩ } width address value
  | emit value => rfl
  | rebase base => rfl
  | jump target => rfl
  | proceed => rfl
  | halt => rfl

theorem exceeds_or_ideal?_step (m : Machine) :
    (m.ideal.Exceeds ∧ m.step = .fault (.overflow m.ip) m) ∨
      ¬m.ideal.Exceeds ∧ m.step.ideal? = some m.ideal.step := by
  have tracks := m.tracks_evaluate
  rw [step_eq_evaluate]
  unfold IdealMachine.Exceeds IdealMachine.step
  generalize m.evaluate = x at tracks ⊢
  generalize m.ideal.evaluate = y at tracks ⊢
  cases tracks with
  | @ok a computed fits =>
    refine .inr ⟨by simpa using fits, ?_⟩
    exact m.ideal?_apply a.1 a.2
  | fault fits cause => exact .inr ⟨by simpa using fits, by simp [Step.ideal?, cause]⟩
  | overflow exceeds => exact .inl ⟨exceeds, rfl⟩

end Machine

end WordMachine
