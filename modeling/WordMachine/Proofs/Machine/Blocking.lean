import WordMachine.Proofs.Machine.Resumption

namespace WordMachine

def Effect.opcodes : Effect → List Opcode
  | .store _ _ => [.add, .multiply, .lessThan, .equals]
  | .receive _ => [.input]
  | .emit _ => [.output]
  | .rebase _ => [.adjustRelativeBase]
  | .jump _ => [.jumpIfTrue, .jumpIfFalse]
  | .proceed => [.jumpIfTrue, .jumpIfFalse]
  | .halt => [.halt]

namespace Machine

theorem isHalted_iff {m : Machine} : m.isHalted ↔ m.state = .halted := by
  simp [isHalted]

theorem bind_eq_ok_iff {x : Except Fault α} {f : α → Except Fault β} :
    (x >>= f) = .ok b ↔ ∃ a, x = .ok a ∧ f a = .ok b := by
  cases x <;> simp [bind, Except.bind]

theorem branch_cases (h : branch taken target = .ok e) : (∃ ip, e = .jump ip) ∨ e = .proceed := by
  unfold branch at h
  cases taken with
  | false => simp_all
  | true =>
    cases index : Word.index? target with
    | none => simp [index] at h
    | some ip =>
      simp only [index, if_true, Except.ok.injEq] at h
      exact .inl ⟨ip, h.symm⟩

theorem opcode_mem_of_effect {m : Machine} (h : m.effect i = .ok e) : i.opcode ∈ e.opcodes := by
  unfold effect at h
  cases opcode : i.opcode <;> simp only [opcode, bind_eq_ok_iff] at h
  case add | multiply =>
    obtain ⟨a, -, b, -, result, -, cell, -, ⟨⟩⟩ := h
    simp [Effect.opcodes]
  case lessThan | equals =>
    obtain ⟨a, -, b, -, cell, -, ⟨⟩⟩ := h
    simp [Effect.opcodes]
  case input | output =>
    obtain ⟨a, -, ⟨⟩⟩ := h
    simp [Effect.opcodes]
  case jumpIfTrue | jumpIfFalse =>
    obtain ⟨a, -, b, -, h⟩ := h
    obtain ⟨ip, rfl⟩ | rfl := branch_cases h <;> simp [Effect.opcodes]
  case adjustRelativeBase =>
    obtain ⟨a, -, b, -, ⟨⟩⟩ := h
    simp [Effect.opcodes]
  case halt =>
    cases h
    simp [Effect.opcodes]

def isAt (m : Machine) (opcode : Opcode) : Bool :=
  match m.fetch with
  | .ok i => i.opcode = opcode
  | .error _ => false

theorem isAt_of_ne {m : Machine} (h : m.isAt opcode) (ne : opcode ≠ opcode₁) :
    m.isAt opcode₁ = false := by
  unfold isAt at h ⊢
  cases fetch : m.fetch with
  | error cause => rfl
  | ok i =>
    simp only [fetch, decide_eq_true_eq] at h
    simpa [h] using ne

inductive Executes (m : Machine) : Step → Prop
  | fault {cause : Fault} {m₁ : Machine} : Executes m (.fault cause m₁)
  | wait : m.isAt .input → m.inbox.waiting = [] →
    Executes m (.waiting { m with state := .waiting })
  | receive {w : Word} {m₁ : Machine} :
    m.isAt .input → m.inbox.waiting = w :: m₁.inbox.waiting → Executes m (.next m₁ none)
  | halt : m.isAt .halt → Executes m (.halted { m with state := .halted })
  | proceed {m₁ : Machine} {emitted : Option Word} :
    m.isAt .input = false → m₁.inbox = m.inbox → Executes m (.next m₁ emitted)

theorem executes_step (m : Machine) : m.Executes m.step := by
  cases fetch : m.fetch with
  | error cause =>
    simp only [step, fetch]
    exact .fault
  | ok i =>
    cases effect : m.effect i with
    | error cause =>
      simp only [step, fetch, effect]
      exact .fault
    | ok e =>
      have mem := opcode_mem_of_effect effect
      have elsewhere (absent : .input ∉ e.opcodes) : m.isAt .input = false := by
        simp only [isAt, fetch, decide_eq_false_iff_not]
        intro opcode
        exact absent (opcode ▸ mem)
      rw [step_eq_apply fetch effect]
      cases e with
      | receive cell =>
        have atInput : m.isAt .input := by
          simpa [isAt, fetch, Effect.opcodes] using mem
        cases queue : m.inbox.waiting with
        | nil =>
          simp only [apply, Inbox.pop?, queue]
          exact .wait atInput queue
        | cons w rest =>
          simp only [apply, Inbox.pop?, queue]
          cases Word.index? cell with
          | none => exact .fault
          | some cell => exact .receive atInput queue
      | store cell value =>
        simp only [apply]
        cases Word.index? cell with
        | none => exact .fault
        | some cell => exact .proceed (elsewhere (by simp [Effect.opcodes])) rfl
      | emit | rebase | jump | proceed =>
        exact .proceed (elsewhere (by simp [Effect.opcodes])) rfl
      | halt =>
        apply Executes.halt
        simpa [isAt, fetch, Effect.opcodes] using mem

theorem isAt_of_step_waiting {m : Machine} (h : m.step = .waiting m₁) :
    m.isAt .input ∧ m.inbox.waiting = [] := by
  have executes := m.executes_step
  rw [h] at executes
  cases executes with
  | wait atInput empty => exact ⟨atInput, empty⟩

theorem isAt_of_step_halted {m : Machine} (h : m.step = .halted m₁) : m.isAt .halt := by
  have executes := m.executes_step
  rw [h] at executes
  cases executes with
  | halt atHalt => exact atHalt

theorem isAt_of_step_next {m : Machine} (h : m.step = .next m₁ emitted)
    (empty : m.inbox.waiting = []) : m.isAt .input = false ∧ m₁.inbox.waiting = [] := by
  have executes := m.executes_step
  rw [h] at executes
  cases executes with
  | receive _ queue => simp [empty] at queue
  | proceed elsewhere inbox => exact ⟨elsewhere, by rw [inbox, empty]⟩

theorem step_enqueue_of_waiting {m : Machine} (h : m.step = .waiting m₁) (w : Word) :
    (∃ m₂, (m.enqueue [w]).step = .next m₂ none ∧ m₂.inbox.waiting = []) ∨
      ∃ cause m₂, (m.enqueue [w]).step = .fault cause m₂ := by
  obtain ⟨atInput, empty⟩ := isAt_of_step_waiting h
  have atInput₁ : (m.enqueue [w]).isAt .input := atInput
  have executes := (m.enqueue [w]).executes_step
  generalize (m.enqueue [w]).step = result at executes ⊢
  cases executes with
  | fault => exact .inr ⟨_, _, rfl⟩
  | wait _ queue => simp [enqueue] at queue
  | receive _ queue =>
    simp only [enqueue, empty, List.nil_append, List.cons.injEq] at queue
    exact .inl ⟨_, rfl, queue.2.symm⟩
  | halt atHalt => simp [isAt_of_ne atInput₁] at atHalt
  | proceed elsewhere => simp [atInput₁] at elsewhere

theorem Runs.halted_or_waiting {m : Machine} (h : m.Runs r) (active : m.state = .active)
    (ok : r.result = .ok output) :
    r.machine.state = .halted ∨ step { r.machine with state := .active } = .waiting r.machine := by
  induction h generalizing output with
  | @waiting m m₁ step =>
    obtain rfl := eq_of_step_waiting step
    cases m
    cases active
    exact .inr step
  | halted step =>
    obtain rfl := eq_of_step_halted step
    exact .inl rfl
  | fault step => cases ok
  | @next m m₁ emitted r step _ ih =>
    obtain ⟨rest, ok₁, -⟩ := Reply.result_after_eq_ok_iff.1 ok
    exact ih (by rw [state_of_step_next step, active]) ok₁

theorem Calls.halted_or_waiting {m : Machine} (h : m.Calls ⟨m₁, .ok output⟩) :
    m₁.state = .halted ∨ step { m₁ with state := .active } = .waiting m₁ := by
  by_cases halted : m.state = .halted
  · cases (calls_iff_of_halted halted).1 h
    exact .inl halted
  · rw [calls_iff_runs halted] at h
    exact h.halted_or_waiting rfl rfl

inductive BeforeInput (m : Machine) : Machine → Prop
  | start : BeforeInput m m
  | next {m₁ m₂ : Machine} {emitted : Option Word} :
    BeforeInput m m₁ → m₁.isAt .input = false → m₁.step = .next m₂ emitted → BeforeInput m m₂

def AsksFirst (m : Machine) : Prop :=
  m.state ≠ .halted → ∀ m₁ m₂ w, BeforeInput { m with state := .active } m₁ →
    m₁.step ≠ .next m₂ (some w)

theorem Runs.output_eq_nil {m m₀ : Machine} (h : m.Runs r) (before : BeforeInput m₀ m)
    (silent : ∀ m₁ m₂ w, BeforeInput m₀ m₁ → m₁.step ≠ .next m₂ (some w))
    (empty : m.inbox.waiting = []) (ok : r.result = .ok output) : output = [] := by
  induction h generalizing output with
  | waiting step =>
    cases ok
    rfl
  | halted step =>
    cases ok
    rfl
  | fault step => cases ok
  | @next m m₁ emitted r step _ ih =>
    obtain ⟨rest, ok₁, rfl⟩ := Reply.result_after_eq_ok_iff.1 ok
    obtain ⟨elsewhere, empty₁⟩ := isAt_of_step_next step empty
    cases emitted with
    | none => simpa using ih (before.next elsewhere step) empty₁ ok₁
    | some w => exact absurd step (silent m m₁ w before)

theorem AsksFirst.output_eq_nil {m : Machine} (h : m.AsksFirst) (empty : m.inbox.waiting = [])
    (calls : m.Calls ⟨m₁, .ok output⟩) : output = [] := by
  by_cases halted : m.state = .halted
  · simp only [calls_iff_of_halted halted, Reply.mk.injEq, Except.ok.injEq] at calls
    exact calls.2
  · rw [calls_iff_runs halted] at calls
    exact calls.output_eq_nil .start (h halted) empty rfl

end Machine

end WordMachine
