import WordMachine.Proofs.Machine.Blocking

/-!
Failing calls. A call that fails stops at the instruction that it could not execute and has done
nothing of it, so that it fails in the same way however often it is repeated. Only an input
instruction without a cell to write to is different: every call of it drops a word, until no word
is left and the machine waits.
-/

namespace WordMachine

def Fault.ArisesAt (ip : Nat) : Fault → Prop
  | .invalidAddress address => address.toInt < 0
  | .invalidMode _ address => address = ip
  | .unknownOpcode _ address => address = ip
  | .ranOffImage address => address = ip
  | .overflow address => address = ip
  | .input _ => False

def FaultsAt (ip : Nat) (x : Except Fault α) : Prop :=
  ∀ cause, x = .error cause → cause.ArisesAt ip

namespace FaultsAt

theorem ok (ip : Nat) (a : α) : FaultsAt ip (.ok a) := by
  intro cause h
  cases h

theorem error {cause : Fault} (h : cause.ArisesAt ip) :
    FaultsAt ip (.error cause : Except Fault α) := by
  rintro _ ⟨⟩
  exact h

theorem bind {x : Except Fault α} {f : α → Except Fault β} (h : FaultsAt ip x)
    (next : ∀ a, FaultsAt ip (f a)) : FaultsAt ip (x >>= f) := by
  cases x with
  | error cause => exact .error (h cause rfl)
  | ok a => exact next a

end FaultsAt

theorem faultsAt_decodeMode (opcode : Opcode) (word : Word) (address index : Nat) :
    FaultsAt address (Instruction.decodeMode opcode word address index) := by
  unfold Instruction.decodeMode
  split
  · split
    · exact .error rfl
    · split
      · exact .error rfl
      · exact .ok _ _
  · exact .ok _ _

theorem faultsAt_decode (word : Word) (address : Nat) :
    FaultsAt address (Instruction.decode word address) := by
  unfold Instruction.decode
  split
  · exact .error rfl
  · next opcode _ =>
    have mode := faultsAt_decodeMode opcode word address
    exact (mode 0).bind fun _ => (mode 1).bind fun _ => (mode 2).bind fun _ => .ok _ _

theorem faultsAt_read (ip : Nat) (memory : Memory) (address : Word) :
    FaultsAt ip (memory.read address) := by
  unfold Memory.read
  split
  · exact .ok _ _
  · next negative => exact .error (Word.index?_eq_none_iff.1 negative)

namespace Machine

theorem faultsAt_fetch (m : Machine) : FaultsAt m.ip m.fetch := by
  unfold fetch
  split
  · exact faultsAt_decode _ _
  · exact .error rfl

theorem faultsAt_fitting (m : Machine) (result : Option Word) :
    FaultsAt m.ip (m.fitting result) := by
  cases result with
  | none => exact .error rfl
  | some w => exact .ok _ _

theorem faultsAt_address (m : Machine) (i : Instruction) (index : Fin 3) :
    FaultsAt m.ip (m.address i index) := by
  unfold address
  split
  · exact .ok _ _
  · exact m.faultsAt_fitting _
  · exact .error rfl

theorem faultsAt_operand (m : Machine) (i : Instruction) (index : Fin 3) :
    FaultsAt m.ip (m.operand i index) := by
  have addressed := (m.faultsAt_address i index).bind fun a => faultsAt_read m.ip m.memory a
  unfold operand
  split
  · exact .ok _ _
  · exact addressed
  · exact addressed

theorem faultsAt_branch (ip : Nat) (taken : Bool) (target : Word) :
    FaultsAt ip (branch taken target) := by
  unfold branch
  split
  · split
    · exact .ok _ _
    · next negative => exact .error (Word.index?_eq_none_iff.1 negative)
  · exact .ok _ _

theorem faultsAt_effect (m : Machine) (i : Instruction) : FaultsAt m.ip (m.effect i) := by
  have operand := m.faultsAt_operand i
  have address := m.faultsAt_address i
  unfold effect
  cases i.opcode with
  | add | multiply =>
    exact (operand 0).bind fun _ => (operand 1).bind fun _ => (m.faultsAt_fitting _).bind fun _ =>
      (address 2).bind fun _ => .ok _ _
  | lessThan | equals =>
    exact (operand 0).bind fun _ => (operand 1).bind fun _ => (address 2).bind fun _ => .ok _ _
  | input => exact (address 0).bind fun _ => .ok _ _
  | output => exact (operand 0).bind fun _ => .ok _ _
  | jumpIfTrue | jumpIfFalse =>
    exact (operand 0).bind fun _ => (operand 1).bind fun _ => faultsAt_branch _ _ _
  | adjustRelativeBase =>
    exact (operand 0).bind fun _ => (m.faultsAt_fitting _).bind fun _ => .ok _ _
  | halt => exact .ok _ _

theorem apply_fault_cases {m : Machine} {e : Effect} (h : m.apply width e = .fault cause m₁) :
    ∃ address : Word, cause = .invalidAddress address ∧ address.toInt < 0 ∧
      ((∃ value, e = .store address value) ∧ m₁ = m ∨
        e = .receive address ∧ ∃ w, m = { m₁ with inbox := ⟨w :: m₁.inbox.waiting⟩ }) := by
  cases e with
  | store address value =>
    cases index : Word.index? address with
    | some cell => simp [apply, index] at h
    | none =>
      simp only [apply, index, Step.fault.injEq] at h
      obtain ⟨rfl, rfl⟩ := h
      exact ⟨address, rfl, Word.index?_eq_none_iff.1 index, .inl ⟨⟨value, rfl⟩, rfl⟩⟩
  | receive address =>
    cases queue : m.inbox.waiting with
    | nil => simp [apply, Inbox.pop?, queue] at h
    | cons w rest =>
      cases index : Word.index? address with
      | some cell => simp [apply, Inbox.pop?, queue, index] at h
      | none =>
        simp only [apply, Inbox.pop?, queue, index, Step.fault.injEq] at h
        obtain ⟨rfl, rfl⟩ := h
        refine ⟨address, rfl, Word.index?_eq_none_iff.1 index, .inr ⟨rfl, w, ?_⟩⟩
        simp [← queue]
  | emit | rebase | jump | proceed | halt => cases h

/-- The next instruction takes input for a cell with a negative address. -/
def Misdirected (m : Machine) : Prop :=
  ∃ i address, m.fetch = .ok i ∧ i.opcode = .input ∧ m.effect i = .ok (.receive address) ∧
    address.toInt < 0

theorem misdirected_iff {m : Machine} (fetch : m.fetch = .ok i) :
    m.Misdirected ↔ ∃ address, m.effect i = .ok (.receive address) ∧ address.toInt < 0 := by
  constructor
  · rintro ⟨i₁, address, fetch₁, -, effect, negative⟩
    rw [fetch] at fetch₁
    cases fetch₁
    exact ⟨address, effect, negative⟩
  · rintro ⟨address, effect, negative⟩
    have opcode : i.opcode = .input := by
      simpa [Effect.opcodes] using opcode_mem_of_effect effect
    exact ⟨i, address, fetch, opcode, effect, negative⟩

theorem step_fault_cases {m : Machine} (h : m.step = .fault cause m₁) :
    cause.ArisesAt m.ip ∧
      (¬m.Misdirected ∧ m₁ = m ∨
        m.Misdirected ∧ ∃ w, m = { m₁ with inbox := ⟨w :: m₁.inbox.waiting⟩ }) := by
  cases fetch : m.fetch with
  | error cause₁ =>
    simp only [step, fetch, Step.fault.injEq] at h
    obtain ⟨rfl, rfl⟩ := h
    exact ⟨m.faultsAt_fetch _ fetch, .inl ⟨by simp [Misdirected, fetch], rfl⟩⟩
  | ok i =>
    cases effect : m.effect i with
    | error cause₁ =>
      simp only [step, fetch, effect, Step.fault.injEq] at h
      obtain ⟨rfl, rfl⟩ := h
      exact ⟨m.faultsAt_effect i _ effect, .inl ⟨by simp [misdirected_iff fetch, effect], rfl⟩⟩
    | ok e =>
      rw [step_eq_apply fetch effect] at h
      obtain ⟨address, rfl, negative, ⟨⟨value, rfl⟩, rfl⟩ | ⟨rfl, popped⟩⟩ := apply_fault_cases h
      · exact ⟨negative, .inl ⟨by simp [misdirected_iff fetch, effect], rfl⟩⟩
      · exact ⟨negative, .inr ⟨(misdirected_iff fetch).2 ⟨address, effect, negative⟩, popped⟩⟩

theorem state_of_step_fault {m m₁ : Machine} (h : m.step = .fault cause m₁) :
    m₁.state = m.state := by
  rcases (step_fault_cases h).2 with ⟨-, rfl⟩ | ⟨-, w, eq⟩
  · rfl
  · rw [eq]

theorem Misdirected.exists_step {m : Machine} (h : m.Misdirected) :
    ∃ address : Word,
      step { m with inbox := ⟨[]⟩ } = .waiting { m with inbox := ⟨[]⟩, state := .waiting } ∧
      ∀ w rest, step { m with inbox := ⟨w :: rest⟩ } =
        .fault (.invalidAddress address) { m with inbox := ⟨rest⟩ } := by
  obtain ⟨i, address, fetch, -, effect, negative⟩ := h
  have step_eq (queue : List Word) : step { m with inbox := ⟨queue⟩ } =
      apply { m with inbox := ⟨queue⟩ } i.width (.receive address) := step_eq_apply fetch effect
  refine ⟨address, step_eq [], ?_⟩
  intro w rest
  simp [step_eq, apply, Inbox.pop?, Word.index?_eq_none_iff.2 negative]

inductive Advances : Nat → Machine → Machine → Prop
  | start {m : Machine} : Advances 0 m m
  | next {m m₁ m₂ : Machine} {emitted : Option Word} {n : Nat} :
    m.step = .next m₁ emitted → Advances n m₁ m₂ → Advances (n + 1) m m₂

theorem Advances.state_eq {m m₁ : Machine} (h : Advances n m m₁) : m₁.state = m.state := by
  induction h with
  | start => rfl
  | next step _ ih => rw [ih, state_of_step_next step]

theorem Runs.advances {m : Machine} (h : m.Runs r) (failed : r.result = .error cause) :
    ∃ n m₀, Advances n m m₀ ∧ m₀.step = .fault cause r.machine := by
  induction h with
  | waiting => cases failed
  | halted => cases failed
  | @fault m m₁ cause₁ step =>
    cases failed
    exact ⟨0, m, .start, step⟩
  | next step _ ih =>
    obtain ⟨n, m₀, advances, fault⟩ := ih (Reply.result_after_eq_error_iff.1 failed)
    exact ⟨n + 1, m₀, .next step advances, fault⟩

theorem Calls.active_of_error {m : Machine} (h : m.Calls ⟨m₁, .error cause⟩) :
    m₁.state = .active := by
  have running : m.state ≠ .halted := by
    intro halted
    simp [calls_iff_of_halted halted] at h
  obtain ⟨n, m₀, advances, step⟩ := ((calls_iff_runs running).1 h).advances rfl
  rw [state_of_step_fault step, advances.state_eq]

inductive Retries (cause : Fault) : Nat → Machine → Machine → Prop
  | start {m : Machine} : Retries cause 0 m m
  | again {m m₁ m₂ : Machine} {n : Nat} :
    m.Calls ⟨m₁, .error cause⟩ → Retries cause n m₁ m₂ → Retries cause (n + 1) m m₂

theorem calls_iff_runs_of_active {m : Machine} (h : m.state = .active) : m.Calls r ↔ m.Runs r := by
  rw [calls_iff_runs (by simp [h])]
  cases m
  cases h
  rfl

theorem retries_self {m : Machine} (active : m.state = .active) (step : m.step = .fault cause m)
    (n : Nat) : Retries cause n m m := by
  induction n with
  | zero => exact .start
  | succ n ih => exact .again ((calls_iff_runs_of_active active).2 (.fault step)) ih

theorem retries_drop {m : Machine} (active : m.state = .active)
    (step : ∀ w rest,
      step { m with inbox := ⟨w :: rest⟩ } = .fault cause { m with inbox := ⟨rest⟩ })
    (queue : List Word) (n : Nat) (le : n ≤ queue.length) :
    Retries cause n { m with inbox := ⟨queue⟩ } { m with inbox := ⟨queue.drop n⟩ } := by
  induction n generalizing queue with
  | zero => exact .start
  | succ n ih =>
    cases queue with
    | nil => simp at le
    | cons w rest =>
      have calls : Calls { m with inbox := ⟨w :: rest⟩ }
          ⟨{ m with inbox := ⟨rest⟩ }, .error cause⟩ :=
        (calls_iff_runs_of_active (m := { m with inbox := ⟨w :: rest⟩ }) active).2
          (.fault (step w rest))
      exact .again calls (ih rest (by simpa using le))

/-- A call that fails leaves the machine where its last good instruction left it, with at most a
word of input lost, and with a fault that tells where it is. Calls that follow fail in the same way,
unless they run out of input to lose. -/
theorem calls_error_stops_in_place (m m₁ : Machine) (cause : Fault)
    (h : m.Calls ⟨m₁, .error cause⟩) :
    ∃ n m₀, Advances n { m with state := .active } m₀ ∧ m₀.step = .fault cause m₁ ∧
      m₁.state = .active ∧ cause.ArisesAt m₁.ip ∧
      (¬m₁.Misdirected → m₀ = m₁ ∧ ∀ retries, Retries cause retries m₁ m₁) ∧
      (m₁.Misdirected → (∃ w, m₀ = { m₁ with inbox := ⟨w :: m₁.inbox.waiting⟩ }) ∧
        (∀ retries ≤ m₁.inbox.waiting.length,
          Retries cause retries m₁ { m₁ with inbox := ⟨m₁.inbox.waiting.drop retries⟩ }) ∧
        Calls { m₁ with inbox := ⟨[]⟩ }
          ⟨{ m₁ with inbox := ⟨[]⟩, state := .waiting }, .ok []⟩) := by
  have running : m.state ≠ .halted := by
    intro halted
    simp [calls_iff_of_halted halted] at h
  obtain ⟨n, m₀, advances, step⟩ := ((calls_iff_runs running).1 h).advances rfl
  have active : m₀.state = .active := advances.state_eq
  obtain ⟨arises, left⟩ := step_fault_cases step
  refine ⟨n, m₀, advances, step, ?_⟩
  rcases left with ⟨sound, rfl⟩ | ⟨misdirected, w, eq⟩
  · refine ⟨active, arises, fun _ => ⟨rfl, retries_self active step⟩, ?_⟩
    intro misdirected
    exact absurd misdirected sound
  · subst eq
    -- An instruction does not look at the queue until it takes from it.
    have misdirected₁ : m₁.Misdirected := misdirected
    obtain ⟨address, waits, drops⟩ := misdirected₁.exists_step
    rw [drops] at step
    cases step
    refine ⟨active, arises, fun sound => absurd misdirected₁ sound, fun _ => ⟨⟨w, rfl⟩, ?_, ?_⟩⟩
    · exact retries_drop active drops m₁.inbox.waiting
    · exact (calls_iff_runs_of_active (m := { m₁ with inbox := ⟨[]⟩ }) active).2 (.waiting waits)

/-- Two more words are lost to the second input instruction before the machine waits there. -/
theorem calls_error_stops_in_place_misdirected :
    let m : Machine := { ofProgram [3, 20, 4, 20, 3, -1] with inbox := ⟨[7, 8, 9, 5]⟩ }
    let failed : Machine := { m with ip := 4, memory := m.memory.set 20 7, inbox := ⟨[9, 5]⟩ }
    m.Calls ⟨failed, .error (.invalidAddress (-1))⟩ ∧
      Retries (.invalidAddress (-1)) 2 failed { failed with inbox := ⟨[]⟩ } ∧
      Calls { failed with inbox := ⟨[]⟩ }
        ⟨{ failed with inbox := ⟨[]⟩, state := .waiting }, .ok []⟩ := by
  intro m failed
  have calls : m.Calls ⟨failed, .error (.invalidAddress (-1))⟩ := ⟨9, by subst m; rfl⟩
  have misdirected : failed.Misdirected :=
    ⟨⟨.input, .position, .position, .position⟩, -1, by subst failed m; rfl, rfl, rfl, by decide⟩
  obtain ⟨n, m₀, -, -, -, -, -, lost⟩ := calls_error_stops_in_place m failed _ calls
  obtain ⟨-, retries, waits⟩ := lost misdirected
  exact ⟨calls, retries 2 (by decide), waits⟩

end Machine

end WordMachine
