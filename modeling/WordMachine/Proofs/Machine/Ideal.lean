import Mathlib.Algebra.Group.Int.Defs
import Mathlib.Algebra.Group.Nat.Defs
import Mathlib.Logic.Function.Basic
import WordMachine.Machine.Basic

/-!
The ideal machine. Its words are integers of any size and its memory is a function, of which the
first `size` cells can be executed. It knows nothing of a range that numbers have to fit, but the
numbers that an instruction computes on its way can be listed and compared with one.
-/

namespace WordMachine

structure IdealMachine where
  ip : Nat
  relativeBase : Int
  cell : Nat → Int
  size : Nat
  queue : List Int
  state : RunState

namespace IdealMachine

def ofImage (image : List Int) : IdealMachine where
  ip := 0
  relativeBase := 0
  cell i := image.getD i 0
  size := image.length
  queue := []
  state := .active

inductive Fault
  | invalidAddress (address : Int)
  | invalidMode (digit : Int) (address : Nat)
  | unknownOpcode (code : Int) (address : Nat)
  | ranOffImage (address : Nat)
  deriving DecidableEq

/-- A result together with the numbers that were computed before it, or before the fault that came
in its place. -/
structure Evaluation (α : Type) where
  computed : List Int
  result : Except Fault α

namespace Evaluation

def bind (x : Evaluation α) (f : α → Evaluation β) : Evaluation β :=
  match x.result with
  | .ok a => ⟨x.computed ++ (f a).computed, (f a).result⟩
  | .error cause => ⟨x.computed, .error cause⟩

instance : Monad Evaluation where
  pure a := ⟨[], .ok a⟩
  bind := bind

def fail (cause : Fault) : Evaluation α := ⟨[], .error cause⟩

def compute (n : Int) : Evaluation Int := ⟨[n], .ok n⟩

end Evaluation

open Evaluation

inductive Role
  | source
  | target
  deriving DecidableEq

def roles : Opcode → List Role
  | .add => [.source, .source, .target]
  | .multiply => [.source, .source, .target]
  | .input => [.target]
  | .output => [.source]
  | .jumpIfTrue => [.source, .source]
  | .jumpIfFalse => [.source, .source]
  | .lessThan => [.source, .source, .target]
  | .equals => [.source, .source, .target]
  | .adjustRelativeBase => [.source]
  | .halt => []

def opcode? : Int → Option Opcode
  | 1 => some .add
  | 2 => some .multiply
  | 3 => some .input
  | 4 => some .output
  | 5 => some .jumpIfTrue
  | 6 => some .jumpIfFalse
  | 7 => some .lessThan
  | 8 => some .equals
  | 9 => some .adjustRelativeBase
  | 99 => some .halt
  | _ => none

def mode? : Role → Nat → Option Mode
  | _, 0 => some .position
  | .source, 1 => some .immediate
  | _, 2 => some .relative
  | _, _ => none

def digit (word : Int) (place : Nat) : Nat := word.natAbs / 10 ^ place % 10

def decodeMode (opcode : Opcode) (word : Int) (address index : Nat) : Evaluation Mode :=
  match (roles opcode)[index]? with
  | none => pure .position
  | some role =>
    match mode? role (digit word (index + 2)) with
    | some mode => pure mode
    | none => fail (.invalidMode (digit word (index + 2)) address)

def decode (word : Int) (address : Nat) : Evaluation Instruction :=
  match opcode? (word.tmod 100) with
  | none => fail (.unknownOpcode (word.tmod 100) address)
  | some opcode => do
    let first ← decodeMode opcode word address 0
    let second ← decodeMode opcode word address 1
    let third ← decodeMode opcode word address 2
    return { opcode, first, second, third }

def fetch (s : IdealMachine) : Evaluation Instruction :=
  if s.ip < s.size then decode (s.cell s.ip) s.ip else fail (.ranOffImage s.ip)

def parameter (s : IdealMachine) (index : Nat) : Int := s.cell (s.ip + 1 + index)

def address (s : IdealMachine) (mode : Mode) (index : Nat) : Evaluation Int :=
  match mode with
  | .position => pure (s.parameter index)
  | .immediate => fail (.invalidMode 1 s.ip)
  | .relative => compute (s.relativeBase + s.parameter index)

def load (s : IdealMachine) (address : Int) : Evaluation Int :=
  if address < 0 then fail (.invalidAddress address) else pure (s.cell address.toNat)

def operand (s : IdealMachine) (mode : Mode) (index : Nat) : Evaluation Int :=
  match mode with
  | .position => s.load (s.parameter index)
  | .immediate => pure (s.parameter index)
  | .relative => do s.load (← compute (s.relativeBase + s.parameter index))

inductive Effect
  | store (address value : Int)
  | receive (address : Int)
  | emit (value : Int)
  | rebase (base : Int)
  | jump (target : Nat)
  | proceed
  | halt

def branch (taken : Prop) [Decidable taken] (target : Int) : Evaluation Effect :=
  if taken then
    if target < 0 then fail (.invalidAddress target) else pure (.jump target.toNat)
  else pure .proceed

def effect (s : IdealMachine) (i : Instruction) : Evaluation Effect :=
  match i.opcode with
  | .add => do
    let a ← s.operand i.first 0
    let b ← s.operand i.second 1
    let sum ← compute (a + b)
    return .store (← s.address i.third 2) sum
  | .multiply => do
    let a ← s.operand i.first 0
    let b ← s.operand i.second 1
    let product ← compute (a * b)
    return .store (← s.address i.third 2) product
  | .input => return .receive (← s.address i.first 0)
  | .output => return .emit (← s.operand i.first 0)
  | .jumpIfTrue => do
    let condition ← s.operand i.first 0
    let target ← s.operand i.second 1
    branch (condition ≠ 0) target
  | .jumpIfFalse => do
    let condition ← s.operand i.first 0
    let target ← s.operand i.second 1
    branch (condition = 0) target
  | .lessThan => do
    let a ← s.operand i.first 0
    let b ← s.operand i.second 1
    return .store (← s.address i.third 2) (if a < b then 1 else 0)
  | .equals => do
    let a ← s.operand i.first 0
    let b ← s.operand i.second 1
    return .store (← s.address i.third 2) (if a = b then 1 else 0)
  | .adjustRelativeBase => do
    let offset ← s.operand i.first 0
    return .rebase (← compute (s.relativeBase + offset))
  | .halt => return .halt

inductive Step
  | next (s : IdealMachine) (emitted : Option Int)
  | waiting (s : IdealMachine)
  | halted (s : IdealMachine)
  | fault (cause : Fault) (s : IdealMachine)

def set (s : IdealMachine) (address value : Int) : IdealMachine :=
  { s with cell := Function.update s.cell address.toNat value }

def feed (s : IdealMachine) (batch : List Int) : IdealMachine :=
  { s with queue := s.queue ++ batch }

def write (s : IdealMachine) (address value : Int) : IdealMachine :=
  if address < 0 then s else s.set address value

def apply (s : IdealMachine) (width : Nat) : Effect → Step
  | .store address value =>
    if address < 0 then .fault (.invalidAddress address) s
    else .next { s.set address value with ip := s.ip + width } none
  | .receive address =>
    match s.queue with
    | [] => .waiting { s with state := .waiting }
    | value :: queue =>
      if address < 0 then .fault (.invalidAddress address) { s with queue }
      else .next { s.set address value with ip := s.ip + width, queue } none
  | .emit value => .next { s with ip := s.ip + width } (some value)
  | .rebase base => .next { s with ip := s.ip + width, relativeBase := base } none
  | .jump target => .next { s with ip := target } none
  | .proceed => .next { s with ip := s.ip + width } none
  | .halt => .halted { s with state := .halted }

def evaluate (s : IdealMachine) : Evaluation (Nat × Effect) := do
  let i ← s.fetch
  let effect ← s.effect i
  return (1 + (roles i.opcode).length, effect)

def step (s : IdealMachine) : Step :=
  match s.evaluate.result with
  | .error cause => .fault cause s
  | .ok (width, effect) => s.apply width effect

def Fits (n : Int) : Prop := -9223372036854775808 ≤ n ∧ n ≤ 9223372036854775807

def Exceeds (s : IdealMachine) : Prop := ∃ n ∈ s.evaluate.computed, ¬Fits n

structure Reply where
  machine : IdealMachine
  result : Except Fault (List Int)

def Reply.after (output : List Int) (r : Reply) : Reply := ⟨r.machine, r.result.map (output ++ ·)⟩

inductive Runs : IdealMachine → Reply → Prop
  | waiting {s s₁ : IdealMachine} : s.step = .waiting s₁ → Runs s ⟨s₁, .ok []⟩
  | halted {s s₁ : IdealMachine} : s.step = .halted s₁ → Runs s ⟨s₁, .ok []⟩
  | fault {s s₁ : IdealMachine} {cause : Fault} :
    s.step = .fault cause s₁ → Runs s ⟨s₁, .error cause⟩
  | next {s s₁ : IdealMachine} {emitted : Option Int} {r : Reply} :
    s.step = .next s₁ emitted → Runs s₁ r → Runs s (r.after emitted.toList)

inductive Calls : IdealMachine → Reply → Prop
  | halted {s : IdealMachine} : s.state = .halted → Calls s ⟨s, .ok []⟩
  | runs {s : IdealMachine} {r : Reply} :
    s.state ≠ .halted → Runs { s with state := .active } r → Calls s r

inductive RunsInto : IdealMachine → IdealMachine → Prop
  | here {s : IdealMachine} : s.Exceeds → RunsInto s s
  | next {s s₁ s₂ : IdealMachine} {emitted : Option Int} :
    ¬s.Exceeds → s.step = .next s₁ emitted → RunsInto s₁ s₂ → RunsInto s s₂

def CallsInto (s s₁ : IdealMachine) : Prop :=
  s.state ≠ .halted ∧ RunsInto { s with state := .active } s₁

end IdealMachine

end WordMachine
