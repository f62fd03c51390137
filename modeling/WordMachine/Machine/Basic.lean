import WordMachine.Input
import WordMachine.Instruction
import WordMachine.Memory

/-!
The machine. A call runs it from where it stands until it waits for input, halts or faults, and the
machine that the call leaves behind can be called again.
-/

namespace WordMachine

inductive RunState
  | active
  | waiting
  | halted
  deriving DecidableEq

def RunState.text : RunState → String
  | .active => "active"
  | .waiting => "blocked on input"
  | .halted => "terminated"

structure Machine where
  ip : Nat := 0
  relativeBase : Word := 0
  memory : Memory
  inbox : Inbox := {}
  state : RunState := .active

inductive Effect
  | store (address value : Word)
  | receive (address : Word)
  | emit (value : Word)
  | rebase (base : Word)
  | jump (target : Nat)
  | proceed
  | halt

inductive Step
  | next (m : Machine) (emitted : Option Word)
  | waiting (m : Machine)
  | halted (m : Machine)
  | fault (cause : Fault) (m : Machine)

structure Reply where
  machine : Machine
  result : Except Fault (List Word)

namespace Machine

def ofProgram (program : List Word) : Machine where
  memory := .ofList program

def feed (m : Machine) (batch : List Word) : Except Fault Machine := do
  let inbox ← m.inbox.push batch
  return { m with inbox }

def read (m : Machine) (address : Word) : Except Fault Word := m.memory.read address

def write (m : Machine) (address w : Word) : Except Fault Machine := do
  let memory ← m.memory.write address w
  return { m with memory }

def isHalted (m : Machine) : Bool := m.state = .halted

def isWaiting (m : Machine) : Bool := m.state = .waiting

def same (a b : Machine) : Bool :=
  a.ip == b.ip && a.relativeBase == b.relativeBase && a.memory == b.memory
    && decide (a.inbox = b.inbox) && decide (a.state = b.state)

instance : BEq Machine := ⟨same⟩

@[inline] def fetch (m : Machine) : Except Fault Instruction :=
  if m.ip < m.memory.imageSize then Instruction.decode (m.memory.get m.ip) m.ip
  else .error (.ranOffImage m.ip)

@[inline] def parameter (m : Machine) (index : Fin 3) : Word := m.memory.get (m.ip + 1 + index)

@[inline] def fitting (m : Machine) (result : Option Word) : Except Fault Word :=
  match result with
  | some w => .ok w
  | none => .error (.overflow m.ip)

def address (m : Machine) (i : Instruction) (index : Fin 3) : Except Fault Word :=
  match i.mode index with
  | .position => .ok (m.parameter index)
  | .relative => m.fitting (Word.add? m.relativeBase (m.parameter index))
  | .immediate => .error (.invalidMode Mode.immediate.digit m.ip)

def operand (m : Machine) (i : Instruction) (index : Fin 3) : Except Fault Word :=
  match i.mode index with
  | .immediate => .ok (m.parameter index)
  | .position | .relative => do
    let address ← m.address i index
    m.memory.read address

@[inline] def branch (taken : Bool) (target : Word) : Except Fault Effect :=
  if taken then
    match Word.index? target with
    | some ip => .ok (.jump ip)
    | none => .error (.invalidAddress target)
  else .ok .proceed

/-- Reads the operands of an instruction, first to last and the written cell at the end. -/
@[inline] def effect (m : Machine) (i : Instruction) : Except Fault Effect :=
  match i.opcode with
  | .add => do
    let a ← m.operand i 0
    let b ← m.operand i 1
    let sum ← m.fitting (Word.add? a b)
    let address ← m.address i 2
    return .store address sum
  | .multiply => do
    let a ← m.operand i 0
    let b ← m.operand i 1
    let product ← m.fitting (Word.mul? a b)
    let address ← m.address i 2
    return .store address product
  | .lessThan => do
    let a ← m.operand i 0
    let b ← m.operand i 1
    let address ← m.address i 2
    return .store address (Word.ofBool (a < b))
  | .equals => do
    let a ← m.operand i 0
    let b ← m.operand i 1
    let address ← m.address i 2
    return .store address (Word.ofBool (a == b))
  | .input => do
    let address ← m.address i 0
    return .receive address
  | .output => do
    let value ← m.operand i 0
    return .emit value
  | .jumpIfTrue => do
    let condition ← m.operand i 0
    let target ← m.operand i 1
    branch (condition != 0) target
  | .jumpIfFalse => do
    let condition ← m.operand i 0
    let target ← m.operand i 1
    branch (condition == 0) target
  | .adjustRelativeBase => do
    let offset ← m.operand i 0
    let base ← m.fitting (Word.add? m.relativeBase offset)
    return .rebase base
  | .halt => .ok .halt

/-- Carries out an effect of an instruction `width` cells wide. Input leaves the queue before the
cell for it is looked up. -/
@[inline] def apply (m : Machine) (width : Nat) : Effect → Step
  | .store address value =>
    match Word.index? address with
    | some cell => .next { m with ip := m.ip + width, memory := m.memory.set cell value } none
    | none => .fault (.invalidAddress address) m
  | .receive address =>
    match m.inbox.pop? with
    | none => .waiting { m with state := .waiting }
    | some (value, inbox) =>
      match Word.index? address with
      | some cell =>
        .next { m with ip := m.ip + width, memory := m.memory.set cell value, inbox } none
      | none => .fault (.invalidAddress address) { m with inbox }
  | .emit value => .next { m with ip := m.ip + width } (some value)
  | .rebase base => .next { m with ip := m.ip + width, relativeBase := base } none
  | .jump target => .next { m with ip := target } none
  | .proceed => .next { m with ip := m.ip + width } none
  | .halt => .halted { m with state := .halted }

def step (m : Machine) : Step :=
  match m.fetch with
  | .error cause => .fault cause m
  | .ok i =>
    match m.effect i with
    | .error cause => .fault cause m
    | .ok effect => m.apply i.width effect

def run : Nat → Machine → List Word → Option Reply
  | 0, _, _ => none
  | fuel + 1, m, emitted =>
    match m.step with
    | .next m none => run fuel m emitted
    | .next m (some w) => run fuel m (w :: emitted)
    | .waiting m => some ⟨m, .ok emitted.reverse⟩
    | .halted m => some ⟨m, .ok emitted.reverse⟩
    | .fault cause m => some ⟨m, .error cause⟩

/-- One call of the machine. A halted machine stays as it is and puts out nothing. There is no reply
if the call takes more than `fuel` instructions. -/
def call (fuel : Nat) (m : Machine) : Option Reply :=
  if m.isHalted then some ⟨m, .ok []⟩ else run fuel { m with state := .active } []

end Machine

end WordMachine
