import WordMachine.Machine.Report
import WordMachine.Proofs.Machine.RunState
import WordMachine.Proofs.Machine.Trapping

namespace WordMachine

namespace Machine

def Addresses (m : Machine) (i : Instruction) (index : Fin 3) (a : Word) : Prop :=
  index < i.opcode.arity ∧
    (i.mode index = .position ∧ a = m.parameter index ∨
      i.mode index = .relative ∧ a.toInt = m.relativeBase.toInt + (m.parameter index).toInt)

inductive JumpsTo (m : Machine) (i : Instruction) (target : Word) : Prop
  | ifTrue {condition : Word} : i.opcode = .jumpIfTrue → m.operand i 0 = .ok condition →
    condition ≠ 0 → m.operand i 1 = .ok target → JumpsTo m i target
  | ifFalse {condition : Word} : i.opcode = .jumpIfFalse → m.operand i 0 = .ok condition →
    condition = 0 → m.operand i 1 = .ok target → JumpsTo m i target

inductive Breaks (m : Machine) (i : Instruction) : Fault → Prop
  | overflow : Breaks m i (.overflow m.ip)
  | address {index : Fin 3} {a : Word} :
    m.Addresses i index a → a.toInt < 0 → Breaks m i (.invalidAddress a)
  | target {a : Word} : m.JumpsTo i a → a.toInt < 0 → Breaks m i (.invalidAddress a)

def BreaksOnly (m : Machine) (i : Instruction) (x : Except Fault α) : Prop :=
  ∀ cause, x = .error cause → m.Breaks i cause

namespace BreaksOnly

variable {m : Machine} {i : Instruction}

theorem ok (a : α) : BreaksOnly m i (.ok a) := by
  intro cause h
  cases h

theorem error {cause : Fault} (h : m.Breaks i cause) :
    BreaksOnly m i (.error cause : Except Fault α) := by
  rintro _ ⟨⟩
  exact h

theorem bind {x : Except Fault α} {f : α → Except Fault β} (h : BreaksOnly m i x)
    (next : ∀ a, x = .ok a → BreaksOnly m i (f a)) : BreaksOnly m i (x >>= f) := by
  cases x with
  | error cause => exact .error (h cause rfl)
  | ok a => exact next a rfl

end BreaksOnly

section

variable {m : Machine} {i : Instruction}

theorem addresses_of_address {index : Fin 3} (used : index < i.opcode.arity)
    (h : m.address i index = .ok a) : m.Addresses i index a := by
  refine ⟨used, ?_⟩
  unfold address at h
  cases mode : i.mode index with
  | position =>
    rw [mode] at h
    cases h
    exact .inl ⟨rfl, rfl⟩
  | relative =>
    simp only [mode] at h
    cases sum : Word.add? m.relativeBase (m.parameter index) with
    | none => simp [fitting, sum] at h
    | some b =>
      rw [sum] at h
      cases h
      exact .inr ⟨rfl, Word.add?_eq_some_iff.1 sum⟩
  | immediate => simp [mode] at h

theorem breaksOnly_fitting (result : Option Word) : BreaksOnly m i (m.fitting result) := by
  cases result with
  | none => exact .error .overflow
  | some w => exact .ok w

theorem breaksOnly_address {index : Fin 3} (indirect : i.mode index ≠ .immediate) :
    BreaksOnly m i (m.address i index) := by
  unfold address
  split
  · exact .ok _
  · exact breaksOnly_fitting _
  · next immediate => exact absurd immediate indirect

theorem breaksOnly_operand {index : Fin 3} (used : index < i.opcode.arity) :
    BreaksOnly m i (m.operand i index) := by
  have addressed (indirect : i.mode index ≠ .immediate) :
      BreaksOnly m i (do m.memory.read (← m.address i index)) := by
    refine (breaksOnly_address indirect).bind fun a address => ?_
    unfold Memory.read
    cases cell : Word.index? a with
    | some cell => exact .ok _
    | none =>
      exact .error (.address (addresses_of_address used address) (Word.index?_eq_none_iff.1 cell))
  unfold operand
  cases mode : i.mode index with
  | immediate => exact .ok _
  | position => exact addressed (by simp [mode])
  | relative => exact addressed (by simp [mode])

theorem breaksOnly_branch (h : taken = true → m.JumpsTo i target) :
    BreaksOnly m i (branch taken target) := by
  unfold branch
  split
  · next jumps =>
    cases cell : Word.index? target with
    | some ip => exact .ok _
    | none => exact .error (.target (h jumps) (Word.index?_eq_none_iff.1 cell))
  · exact .ok _

theorem breaksOnly_effect (canonical : i.IsCanonical) : BreaksOnly m i (m.effect i) := by
  have operand (index : Fin 3) (used : index < i.opcode.arity) :
      BreaksOnly m i (m.operand i index) := breaksOnly_operand used
  have target (index : Fin 3) (writes : i.opcode.target? = some (index : Nat)) :
      BreaksOnly m i (m.address i index) := breaksOnly_address ((canonical index).2 writes)
  unfold effect
  cases opcode : i.opcode <;> simp only [opcode] at operand target
  case add | multiply =>
    exact (operand 0 (by decide)).bind fun _ _ => (operand 1 (by decide)).bind fun _ _ =>
      (breaksOnly_fitting _).bind fun _ _ => (target 2 rfl).bind fun _ _ => .ok _
  case lessThan | equals =>
    exact (operand 0 (by decide)).bind fun _ _ => (operand 1 (by decide)).bind fun _ _ =>
      (target 2 rfl).bind fun _ _ => .ok _
  case input => exact (target 0 rfl).bind fun _ _ => .ok _
  case output => exact (operand 0 (by decide)).bind fun _ _ => .ok _
  case jumpIfTrue =>
    refine (operand 0 (by decide)).bind fun condition value =>
      (operand 1 (by decide)).bind fun target value₁ => breaksOnly_branch fun taken => ?_
    exact .ifTrue opcode value (by simpa using taken) value₁
  case jumpIfFalse =>
    refine (operand 0 (by decide)).bind fun condition value =>
      (operand 1 (by decide)).bind fun target value₁ => breaksOnly_branch fun taken => ?_
    exact .ifFalse opcode value (by simpa using taken) value₁
  case adjustRelativeBase =>
    exact (operand 0 (by decide)).bind fun _ _ => (breaksOnly_fitting _).bind fun _ _ => .ok _
  case halt => exact .ok _

def Origin (m : Machine) (i : Instruction) : Effect → Prop
  | .store a _ | .receive a => ∃ index, m.Addresses i index a
  | .jump cell => ∃ target, m.JumpsTo i target ∧ Word.index? target = some cell
  | .emit _ | .rebase _ | .proceed | .halt => True

theorem origin_of_branch (h : branch taken target = .ok e)
    (jumps : taken = true → m.JumpsTo i target) : m.Origin i e := by
  unfold branch at h
  split at h
  · next taken =>
    cases cell : Word.index? target with
    | none => simp [cell] at h
    | some ip =>
      rw [cell] at h
      cases h
      exact ⟨target, jumps taken, cell⟩
  · cases h
    trivial

theorem origin_of_effect (h : m.effect i = .ok e) : m.Origin i e := by
  unfold effect at h
  cases opcode : i.opcode <;> simp only [opcode, bind_eq_ok_iff] at h
  case add | multiply =>
    obtain ⟨a, -, b, -, result, -, cell, address, ⟨⟩⟩ := h
    exact ⟨2, addresses_of_address (by rw [opcode]; decide) address⟩
  case lessThan | equals =>
    obtain ⟨a, -, b, -, cell, address, ⟨⟩⟩ := h
    exact ⟨2, addresses_of_address (by rw [opcode]; decide) address⟩
  case input =>
    obtain ⟨cell, address, ⟨⟩⟩ := h
    exact ⟨0, addresses_of_address (by rw [opcode]; decide) address⟩
  case output =>
    obtain ⟨a, -, ⟨⟩⟩ := h
    trivial
  case jumpIfTrue =>
    obtain ⟨condition, value, target, value₁, h⟩ := h
    apply origin_of_branch h
    intro taken
    exact .ifTrue opcode value (by simpa using taken) value₁
  case jumpIfFalse =>
    obtain ⟨condition, value, target, value₁, h⟩ := h
    apply origin_of_branch h
    intro taken
    exact .ifFalse opcode value (by simpa using taken) value₁
  case adjustRelativeBase =>
    obtain ⟨a, -, b, -, ⟨⟩⟩ := h
    trivial
  case halt =>
    cases h
    trivial

theorem breaks_of_step_fault (fetch : m.fetch = .ok i) (h : m.step = .fault cause m₁) :
    m.Breaks i cause := by
  cases effect : m.effect i with
  | error cause₁ =>
    simp only [step, fetch, effect, Step.fault.injEq] at h
    obtain ⟨rfl, -⟩ := h
    exact breaksOnly_effect (isCanonical_of_fetch fetch).2 _ effect
  | ok e =>
    have origin := origin_of_effect effect
    rw [step_eq_apply fetch effect] at h
    obtain ⟨a, rfl, negative, ⟨⟨value, rfl⟩, -⟩ | ⟨rfl, -⟩⟩ := apply_fault_cases h
    all_goals
      obtain ⟨index, addresses⟩ := origin
      exact .address addresses negative

theorem fetch_ne_invalidAddress (m : Machine) (a : Word) :
    m.fetch ≠ .error (.invalidAddress a) := by
  unfold fetch
  split
  · intro failed
    by_cases known : ∃ opcode : Opcode, opcode.code = m.memory.get m.ip % 100
    · obtain ⟨opcode, known⟩ := known
      obtain ⟨index, -, -, cause⟩ := (Instruction.decode_eq_error_iff known).1 failed
      cases cause
    · rw [Instruction.decode_of_forall_code_ne _ (not_exists.1 known)] at failed
      cases failed
  · simp

end

theorem ip_apply_cases (m : Machine) (width : Nat) (e : Effect) :
    (m.apply width e).machine.ip = m.ip ∨ (m.apply width e).machine.ip = m.ip + width ∨
      ∃ target, e = .jump target ∧ (m.apply width e).machine.ip = target := by
  cases e with
  | store address value =>
    simp only [apply]
    cases Word.index? address with
    | none => exact .inl rfl
    | some cell => exact .inr (.inl rfl)
  | receive address =>
    simp only [apply]
    cases m.inbox.pop? with
    | none => exact .inl rfl
    | some popped =>
      cases Word.index? address with
      | none => exact .inl rfl
      | some cell => exact .inr (.inl rfl)
  | emit | rebase | proceed => exact .inr (.inl rfl)
  | jump target => exact .inr (.inr ⟨target, rfl, rfl⟩)
  | halt => exact .inl rfl

namespace InBounds

variable {m : Machine}

theorem ofProgram {program : List Word} (size : program.length ≤ 1152921504606846975) :
    (ofProgram program).InBounds :=
  ⟨size, Nat.zero_le _⟩

theorem active (h : m.InBounds) : InBounds { m with state := .active } := ⟨h.size, h.ip_le⟩

theorem step (h : m.InBounds) (step : m.step = s) : s.machine.InBounds := by
  refine ⟨(imageSize_of_step step).trans_le h.size, ?_⟩
  cases fetch : m.fetch with
  | error cause =>
    rw [Machine.step, fetch] at step
    subst step
    exact h.ip_le
  | ok i =>
    cases effect : m.effect i with
    | error cause =>
      simp only [Machine.step, fetch, effect] at step
      subst step
      exact h.ip_le
    | ok e =>
      have near := h.near_of_fetch fetch
      have narrow := i.width_le_four
      rw [step_eq_apply fetch effect] at step
      subst step
      rcases m.ip_apply_cases i.width e with stays | next | ⟨ip, rfl, jumps⟩
      · rw [stays]
        exact h.ip_le
      · omega
      · obtain ⟨target, -, cell⟩ := origin_of_effect effect
        rw [jumps]
        exact Word.le_of_index? cell

theorem advances (h : m.InBounds) (advances : Advances n m m₁) : m₁.InBounds := by
  induction advances with
  | start => exact h
  | next step _ ih => exact ih (h.step step)

theorem runs (h : m.InBounds) (runs : m.Runs r) : r.machine.InBounds := by
  induction runs with
  | waiting step => exact h.step step
  | halted step => exact h.step step
  | fault step => exact h.step step
  | next step _ ih => exact ih (h.step step)

theorem calls (h : m.InBounds) (calls : m.Calls r) : r.machine.InBounds := by
  by_cases halted : m.state = .halted
  · rw [(calls_iff_of_halted halted).1 calls]
    exact h
  · exact h.active.runs ((calls_iff_runs halted).1 calls)

theorem feed (h : m.InBounds) (batch : List Word) :
    ((m.feed batch).toOption.getD m).InBounds := by
  cases batch with
  | nil => exact h
  | cons w batch => exact ⟨h.size, h.ip_le⟩

theorem write (h : m.InBounds) (address value : Word) :
    ((m.write address value).toOption.getD m).InBounds := by
  refine ⟨(m.imageSize_write address value).trans_le h.size, ?_⟩
  unfold Machine.write Memory.write
  cases Word.index? address with
  | none => exact h.ip_le
  | some cell => exact h.ip_le

theorem handles (h : m.InBounds) (handles : m.Handles requests m₁) : m₁.InBounds := by
  induction handles with
  | nil => exact h
  | feed _ ih => exact ih (h.feed _)
  | write _ ih => exact ih (h.write _ _)
  | call calls _ ih => exact ih (h.calls calls)

end InBounds

/-- Whatever a host asks of a machine whose image an array can hold, the instruction pointer stays
within the cells that a word can address, and the report on the registers reads the word there. All
instructions are executed as by the trapping machine, without a trap: the cells of an instruction
and of its parameters and the cell behind it can be had, and no address is asked of an immediate
parameter. A call that ends with an invalid address has come upon a parameter with this address or
upon a jump to it, and it is negative. -/
theorem addresses_fit_registers (program : List Word) (requests : List Request) (m : Machine)
    (size : program.length ≤ 1152921504606846975)
    (handles : (ofProgram program).Handles requests m) :
    (m.ip ≤ 9223372036854775807 ∧ Word.HasCell m.ip ∧
      ∃ w, m.read (Word.ofCell m.ip) = .ok w ∧
        m.registers = .registers m.ip m.relativeBase w m.inbox.size m.state) ∧
    (∀ n m₁, Advances n { m with state := .active } m₁ →
      m₁.ip ≤ 9223372036854775807 ∧ Trapping.step m₁ = .ok m₁.step ∧
      m₁.read (Word.ofCell m₁.ip) = .ok (m₁.memory.get m₁.ip) ∧
      ∀ i, m₁.fetch = .ok i →
        Word.HasCell (m₁.ip + i.width) ∧
        (∀ index : Fin 3, Word.HasCell (m₁.ip + 1 + index) ∧
          m₁.read (Word.ofCell (m₁.ip + 1 + index)) = .ok (m₁.parameter index)) ∧
        ∀ cause m₂, m₁.step = .fault cause m₂ → m₁.Breaks i cause) ∧
    ∀ m₁ a, m.Calls ⟨m₁, .error (.invalidAddress a)⟩ →
      ∃ n m₀ i, Advances n { m with state := .active } m₀ ∧ m₀.fetch = .ok i ∧
        m₀.step = .fault (.invalidAddress a) m₁ ∧ a.toInt < 0 ∧
        ((∃ index, m₀.Addresses i index a) ∨ m₀.JumpsTo i a) := by
  have bounds : m.InBounds := (InBounds.ofProgram size).handles handles
  refine ⟨⟨bounds.ip_le, Word.hasCell_of_le bounds.ip_le, _, m.read_ofCell bounds.ip_le, rfl⟩,
    ?_, ?_⟩
  · intro n m₁ advances
    have bounds₁ : m₁.InBounds := bounds.active.advances advances
    refine ⟨bounds₁.ip_le, Trapping.step_eq_ok bounds₁, m₁.read_ofCell bounds₁.ip_le, ?_⟩
    intro i fetch
    have near := bounds₁.near_of_fetch fetch
    have narrow := i.width_le_four
    refine ⟨Word.hasCell_of_le (by omega), ?_, fun cause m₂ => breaks_of_step_fault fetch⟩
    intro index
    have reached : m₁.ip + 1 + index ≤ 9223372036854775807 := by omega
    exact ⟨Word.hasCell_of_le reached, m₁.read_ofCell reached⟩
  · intro m₁ a calls
    have running : m.state ≠ .halted := by
      intro halted
      simp [calls_iff_of_halted halted] at calls
    obtain ⟨n, m₀, advances, step⟩ := ((calls_iff_runs running).1 calls).advances rfl
    cases fetch : m₀.fetch with
    | error cause =>
      simp only [Machine.step, fetch, Step.fault.injEq] at step
      exact absurd (step.1 ▸ fetch) (m₀.fetch_ne_invalidAddress a)
    | ok i =>
      refine ⟨n, m₀, i, advances, fetch, step, ?_⟩
      cases breaks_of_step_fault fetch step with
      | address addresses negative => exact ⟨negative, .inl ⟨_, addresses⟩⟩
      | target jumps negative => exact ⟨negative, .inr jumps⟩

theorem addresses_fit_registers_last_cell :
    let m := ofProgram [1106, 0, 9223372036854775807]
    let far : Machine := { m with ip := 9223372036854775807 }
    let stray := ofProgram [109, -7, 204, 3]
    let lost : Machine := { stray with ip := 2, relativeBase := -7 }
    m.Handles [.call] far ∧
      (∃ w, far.read (Word.ofCell 9223372036854775807) = .ok w ∧
        far.registers = .registers 9223372036854775807 0 w 0 .active) ∧
      Trapping.step far = .ok (.fault (.ranOffImage 9223372036854775807) far) ∧
      stray.Calls ⟨lost, .error (.invalidAddress (-4))⟩ ∧
      ∃ n m₀ i, Advances n stray m₀ ∧ m₀.fetch = .ok i ∧
        ((∃ index, m₀.Addresses i index (-4)) ∨ m₀.JumpsTo i (-4)) := by
  intro m far stray lost
  have fails : m.Calls ⟨far, .error (.ranOffImage 9223372036854775807)⟩ :=
    ⟨9, by subst m; rfl⟩
  have fails₁ : stray.Calls ⟨lost, .error (.invalidAddress (-4))⟩ := ⟨9, by subst stray; rfl⟩
  have handles : m.Handles [.call] far := .call fails .nil
  obtain ⟨⟨-, -, report⟩, executed, -⟩ := addresses_fit_registers _ _ far (by decide) handles
  obtain ⟨-, trapless, -⟩ := executed 0 far .start
  obtain ⟨-, -, refused⟩ := addresses_fit_registers _ _ stray (by decide) .nil
  obtain ⟨n, m₀, i, advances, fetch, -, -, origin⟩ := refused lost (-4) fails₁
  exact ⟨handles, report, trapless.trans rfl, fails₁, n, m₀, i, advances, fetch, origin⟩

end Machine

end WordMachine
