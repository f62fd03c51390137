import WordMachine.Proofs.Instruction
import WordMachine.Proofs.Machine.Simulation

/-!
The trapping machine. It keeps the number of a cell in a register of 64 bits, and reads the cell
through the word with the same bits. Where a sum of cell numbers does not fit the register or the
word is negative, it traps, and so it does where an instruction asks for the address of an immediate
parameter. Near the start of the memory it is the machine.
-/

namespace WordMachine

def Word.ofCell (cell : Nat) : Word := Int64.ofNat cell

def Word.HasCell (cell : Nat) : Prop :=
  cell < 18446744073709551616 ∧ 0 ≤ (Word.ofCell cell).toInt

theorem Word.toInt_ofCell (h : cell ≤ 9223372036854775807) : (Word.ofCell cell).toInt = cell :=
  Int64.toInt_ofNat_of_lt (by omega)

theorem Word.hasCell_of_le (h : cell ≤ 9223372036854775807) : Word.HasCell cell := by
  refine ⟨by omega, ?_⟩
  rw [toInt_ofCell h]
  omega

theorem Word.le_of_index? {a : Word} (h : Word.index? a = some cell) :
    cell ≤ 9223372036854775807 := by
  have := index?_eq_some_iff.1 h
  have := a.toInt_lt
  omega

theorem Instruction.width_le_four (i : Instruction) : i.width ≤ 4 := by
  have := i.opcode.arity_le_three
  unfold width
  omega

namespace Machine

structure InBounds (m : Machine) : Prop where
  size : m.memory.imageSize ≤ 1152921504606846975
  ip_le : m.ip ≤ 9223372036854775807

theorem isCanonical_of_fetch {m : Machine} (h : m.fetch = .ok i) :
    m.ip < m.memory.imageSize ∧ i.IsCanonical := by
  unfold fetch at h
  split at h
  · next inside => exact ⟨inside, (Instruction.decode_eq_ok_iff.1 h).2.1⟩
  · cases h

theorem InBounds.near_of_fetch {m : Machine} (h : m.InBounds) (fetch : m.fetch = .ok i) :
    m.ip + 4 ≤ 9223372036854775807 := by
  have := h.size
  have := (isCanonical_of_fetch fetch).1
  omega

theorem read_ofCell (m : Machine) (h : cell ≤ 9223372036854775807) :
    m.read (Word.ofCell cell) = .ok (m.memory.get cell) := by
  have index : Word.index? (Word.ofCell cell) = some cell :=
    Word.index?_eq_some_iff.2 (Word.toInt_ofCell h)
  rw [read, Memory.read, index]

end Machine

inductive Trap
  | carry
  | negative
  | immediate
  deriving DecidableEq

namespace Trapping

abbrev Evaluation := ExceptT Fault (Except Trap)

def trap (reason : Trap) : Evaluation α := ExceptT.mk (.error reason)

def add (cell offset : Nat) : Evaluation Nat :=
  if cell + offset < 18446744073709551616 then pure (cell + offset) else trap .carry

def load (m : Machine) (cell : Nat) : Evaluation Word :=
  match m.read (Word.ofCell cell) with
  | .ok w => pure w
  | .error _ => trap .negative

def fetch (m : Machine) : Evaluation Instruction :=
  if m.ip < m.memory.imageSize then do
    let word ← load m m.ip
    Instruction.decode word m.ip
  else throw (.ranOffImage m.ip)

def parameter (m : Machine) (index : Nat) : Evaluation Word := do
  let first ← add m.ip 1
  let cell ← add first index
  load m cell

def address (m : Machine) (mode : Mode) (index : Nat) : Evaluation Word := do
  let raw ← parameter m index
  match mode with
  | .position => return raw
  | .relative => m.fitting (Word.add? m.relativeBase raw)
  | .immediate => trap .immediate

def operand (m : Machine) (mode : Mode) (index : Nat) : Evaluation Word :=
  match mode with
  | .immediate => parameter m index
  | .position | .relative => do
    let address ← address m mode index
    m.memory.read address

def effect (m : Machine) (i : Instruction) : Evaluation Effect :=
  match i.opcode with
  | .add => do
    let a ← operand m i.first 0
    let b ← operand m i.second 1
    let sum ← m.fitting (Word.add? a b)
    return .store (← address m i.third 2) sum
  | .multiply => do
    let a ← operand m i.first 0
    let b ← operand m i.second 1
    let product ← m.fitting (Word.mul? a b)
    return .store (← address m i.third 2) product
  | .lessThan => do
    let a ← operand m i.first 0
    let b ← operand m i.second 1
    return .store (← address m i.third 2) (Word.ofBool (a < b))
  | .equals => do
    let a ← operand m i.first 0
    let b ← operand m i.second 1
    return .store (← address m i.third 2) (Word.ofBool (a == b))
  | .input => return .receive (← address m i.first 0)
  | .output => return .emit (← operand m i.first 0)
  | .jumpIfTrue => do
    let condition ← operand m i.first 0
    let target ← operand m i.second 1
    Machine.branch (condition != 0) target
  | .jumpIfFalse => do
    let condition ← operand m i.first 0
    let target ← operand m i.second 1
    Machine.branch (condition == 0) target
  | .adjustRelativeBase => do
    let offset ← operand m i.first 0
    return .rebase (← m.fitting (Word.add? m.relativeBase offset))
  | .halt => return .halt

def evaluate (m : Machine) : Evaluation (Nat × Effect) := do
  let i ← fetch m
  let behind ← add m.ip i.width
  let effect ← effect m i
  return (behind - m.ip, effect)

def step (m : Machine) : Except Trap Step := do
  match ← (evaluate m).run with
  | .error cause => return .fault cause m
  | .ok (width, effect) => return m.apply width effect

def Clears (x : Evaluation α) (y : Except Fault α) : Prop := x.run = .ok y

namespace Clears

theorem pure (a : α) : Clears (Pure.pure a) (.ok a) := rfl

theorem lift (y : Except Fault α) : Clears (liftM y) y := rfl

theorem bind {x : Evaluation α} {y : Except Fault α} {f : α → Evaluation β}
    {g : α → Except Fault β} (h : Clears x y) (next : ∀ a, y = .ok a → Clears (f a) (g a)) :
    Clears (x >>= f) (y >>= g) := by
  rw [Clears, ExceptT.run_bind, h]
  cases y with
  | error cause => rfl
  | ok a => exact next a rfl

theorem bind_ok {x : Evaluation α} {f : α → Evaluation β} {y : Except Fault β}
    (h : Clears x (.ok a)) (next : Clears (f a) y) : Clears (x >>= f) y := by
  rw [Clears, ExceptT.run_bind, h]
  exact next

end Clears

theorem clears_add (h : cell + offset < 18446744073709551616) :
    Clears (add cell offset) (.ok (cell + offset)) := by
  rw [add, if_pos h]
  exact .pure _

theorem clears_load (m : Machine) (h : cell ≤ 9223372036854775807) :
    Clears (load m cell) (.ok (m.memory.get cell)) := by
  rw [load, m.read_ofCell h]
  exact .pure _

theorem clears_fetch {m : Machine} (h : m.ip ≤ 9223372036854775807) : Clears (fetch m) m.fetch := by
  unfold fetch Machine.fetch
  split
  · exact (clears_load m h).bind_ok (.lift _)
  · exact .lift (.error (.ranOffImage m.ip))

section

variable {m : Machine} (near : m.ip + 4 ≤ 9223372036854775807)

include near

theorem clears_parameter (index : Fin 3) :
    Clears (parameter m index) (.ok (m.parameter index)) := by
  have lt : m.ip + 1 < 18446744073709551616 := by omega
  have lt₁ : m.ip + 1 + index < 18446744073709551616 := by omega
  exact (clears_add lt).bind_ok ((clears_add lt₁).bind_ok (clears_load m (by omega)))

theorem clears_address {i : Instruction} (indirect : i.mode index ≠ .immediate) :
    Clears (address m (i.mode index) index) (m.address i index) := by
  refine (clears_parameter near index).bind_ok ?_
  unfold Machine.address
  cases mode : i.mode index with
  | position => exact .pure _
  | relative => exact .lift _
  | immediate => exact absurd mode indirect

theorem clears_operand (i : Instruction) (index : Fin 3) :
    Clears (operand m (i.mode index) index) (m.operand i index) := by
  have addressed (indirect : i.mode index ≠ .immediate) :=
    (clears_address near indirect).bind fun a _ => .lift (m.memory.read a)
  unfold operand Machine.operand
  cases mode : i.mode index with
  | position | relative =>
    rw [mode] at addressed
    exact addressed (by decide)
  | immediate => exact clears_parameter near index

/-- The decoder has refused every instruction that would write through an immediate parameter. -/
theorem clears_effect {i : Instruction} (canonical : i.IsCanonical) :
    Clears (effect m i) (m.effect i) := by
  have operand := clears_operand near i
  have target (index : Fin 3) (writes : i.opcode.target? = some (index : Nat)) :
      Clears (address m (i.mode index) index) (m.address i index) :=
    clears_address near ((canonical index).2 writes)
  unfold effect Machine.effect
  cases opcode : i.opcode with
  | add | multiply =>
    exact (operand 0).bind fun a _ => (operand 1).bind fun b _ =>
      (Clears.lift _).bind fun result _ =>
        (target 2 (by rw [opcode]; rfl)).bind fun address _ => .pure _
  | lessThan | equals =>
    exact (operand 0).bind fun a _ => (operand 1).bind fun b _ =>
      (target 2 (by rw [opcode]; rfl)).bind fun address _ => .pure _
  | input => exact (target 0 (by rw [opcode]; rfl)).bind fun address _ => .pure _
  | output => exact (operand 0).bind fun value _ => .pure _
  | jumpIfTrue | jumpIfFalse =>
    exact (operand 0).bind fun condition _ => (operand 1).bind fun target _ => .lift _
  | adjustRelativeBase =>
    exact (operand 0).bind fun offset _ => (Clears.lift _).bind fun base _ => .pure _
  | halt => exact .pure _

end

theorem clears_evaluate {m : Machine} (h : m.InBounds) : Clears (evaluate m) m.evaluate := by
  refine (clears_fetch h.ip_le).bind fun i fetched => ?_
  have near := h.near_of_fetch fetched
  have narrow := i.width_le_four
  have canonical := (Machine.isCanonical_of_fetch fetched).2
  refine (clears_add (by omega)).bind_ok ((clears_effect near canonical).bind fun e _ => ?_)
  rw [Nat.add_sub_cancel_left]
  exact .pure _

theorem step_eq_ok {m : Machine} (h : m.InBounds) : step m = .ok m.step := by
  rw [step, clears_evaluate h, m.step_eq_evaluate]
  cases m.evaluate <;> rfl

end Trapping

end WordMachine
