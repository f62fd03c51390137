import WordMachine.Fault

/-!
Instructions. The two low decimal digits of a word name the operation, and each digit above them
the mode of one parameter.
-/

namespace WordMachine

inductive Opcode
  | add
  | multiply
  | input
  | output
  | jumpIfTrue
  | jumpIfFalse
  | lessThan
  | equals
  | adjustRelativeBase
  | halt
  deriving DecidableEq

namespace Opcode

def code : Opcode → Word
  | .add => 1
  | .multiply => 2
  | .input => 3
  | .output => 4
  | .jumpIfTrue => 5
  | .jumpIfFalse => 6
  | .lessThan => 7
  | .equals => 8
  | .adjustRelativeBase => 9
  | .halt => 99

@[inline] def ofCode? (code : Word) : Option Opcode :=
  match code.toInt with
  | 1 => some .add
  | 2 => some .multiply
  | 3 => some .input
  | 4 => some .output
  | 5 => some .jumpIfTrue
  | 6 => some .jumpIfFalse
  | 7 => some .lessThan
  | 8 => some .equals
  | 9 => some .adjustRelativeBase
  | 99 => some .halt
  | _ => none

def arity : Opcode → Nat
  | .add | .multiply | .lessThan | .equals => 3
  | .jumpIfTrue | .jumpIfFalse => 2
  | .input | .output | .adjustRelativeBase => 1
  | .halt => 0

def target? : Opcode → Option Nat
  | .add | .multiply | .lessThan | .equals => some 2
  | .input => some 0
  | .output | .jumpIfTrue | .jumpIfFalse | .adjustRelativeBase | .halt => none

def name : Opcode → String
  | .add => "Add"
  | .multiply => "Multiply"
  | .input => "Input"
  | .output => "Output"
  | .jumpIfTrue => "JumpIfTrue"
  | .jumpIfFalse => "JumpIfFalse"
  | .lessThan => "LessThan"
  | .equals => "Equals"
  | .adjustRelativeBase => "AdjustRelativeBase"
  | .halt => "Halt"

@[simp] theorem ofCode?_code (op : Opcode) : ofCode? op.code = some op := by
  cases op <;> rfl

end Opcode

/-- How a parameter stands for a value: as the address of its cell, as itself, or as the distance
of its cell from the relative base. -/
inductive Mode
  | position
  | immediate
  | relative
  deriving DecidableEq

namespace Mode

def digit : Mode → Word
  | .position => 0
  | .immediate => 1
  | .relative => 2

@[inline] def ofDigit? (digit : Word) : Option Mode :=
  match digit.toInt with
  | 0 => some .position
  | 1 => some .immediate
  | 2 => some .relative
  | _ => none

def name : Mode → String
  | .position => "Position"
  | .immediate => "Immediate"
  | .relative => "Relative"

@[simp] theorem ofDigit?_digit (mode : Mode) : ofDigit? mode.digit = some mode := by
  cases mode <;> rfl

end Mode

/-- An operation with the modes of its parameters; those it does not have are in position mode. -/
structure Instruction where
  opcode : Opcode
  first : Mode
  second : Mode
  third : Mode
  deriving DecidableEq

namespace Instruction

def width (i : Instruction) : Nat := 1 + i.opcode.arity

@[inline] def mode (i : Instruction) (index : Fin 3) : Mode :=
  match index with
  | 0 => i.first
  | 1 => i.second
  | 2 => i.third

def modes (i : Instruction) : List Mode := [i.first, i.second, i.third]

@[inline] def modePlace (index : Nat) : Word :=
  match index with
  | 0 => 100
  | 1 => 1000
  | _ => 10000

def encode (i : Instruction) : Word :=
  i.opcode.code + i.first.digit * modePlace 0 + i.second.digit * modePlace 1
    + i.third.digit * modePlace 2

@[inline] def modeDigit (word : Word) (index : Nat) : Word := word / modePlace index % 10

/-- The mode of the parameter `index`. No cell can be written through an immediate parameter. -/
@[inline] def decodeMode (opcode : Opcode) (word : Word) (address index : Nat) :
    Except Fault Mode :=
  if index < opcode.arity then
    match Mode.ofDigit? (modeDigit word index) with
    | none => .error (.invalidMode (modeDigit word index) address)
    | some mode =>
      if mode = .immediate ∧ opcode.target? = some index then
        .error (.invalidMode (modeDigit word index) address)
      else .ok mode
  else .ok .position

@[inline] def decode (word : Word) (address : Nat) : Except Fault Instruction :=
  match Opcode.ofCode? (word % 100) with
  | none => .error (.unknownOpcode (word % 100) address)
  | some opcode => do
    let first ← decodeMode opcode word address 0
    let second ← decodeMode opcode word address 1
    let third ← decodeMode opcode word address 2
    return { opcode, first, second, third }

end Instruction

end WordMachine
