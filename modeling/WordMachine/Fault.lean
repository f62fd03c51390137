import WordMachine.Text.Quoted
import WordMachine.Word.Basic

namespace WordMachine

inductive InputViolation
  | emptyBatch
  | notInteger (token : String)
  deriving DecidableEq

def InputViolation.message : InputViolation → String
  | .emptyBatch => "input batch must contain at least one value"
  | .notInteger token => Text.quote token ++ " is not an integer"

inductive Fault
  | invalidAddress (address : Word)
  | invalidMode (digit : Word) (address : Nat)
  | unknownOpcode (code : Word) (address : Nat)
  | ranOffImage (address : Nat)
  | input (violation : InputViolation)
  | overflow (address : Nat)
  deriving DecidableEq

def Fault.message : Fault → String
  | .invalidAddress address => s!"invalid memory address {address.text}"
  | .invalidMode digit address =>
    s!"invalid addressing mode {digit.text} in instruction at {address}"
  | .unknownOpcode code address => s!"unknown opcode {code.text} at {address}"
  | .ranOffImage address =>
    s!"malformed program: instruction pointer {address} ran off the image without halting"
  | .input violation => s!"input contract violation: {violation.message}"
  | .overflow address => s!"arithmetic overflow in instruction at {address}"

end WordMachine
