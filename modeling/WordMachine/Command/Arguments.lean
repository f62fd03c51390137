import WordMachine.Command.Parameter
import WordMachine.Input
import WordMachine.Text.Blank

namespace WordMachine.Command

structure Arguments where
  program : Option String := none
  log : Option String := none
  input : Option (List Word) := none
  patches : List (Word × Word) := []
  shown : List Word := []
  target : Option Word := none
  interactive : Bool := false
  feedback : Bool := false
  startWhite : Bool := false
  freePlay : Bool := false

def readSide (side text : String) : Except String Word :=
  match Word.parse (Text.trim text) with
  | .ok w => .ok w
  | .error e => .error s!"bad {side} {Text.quote text}: {e.message}"

def readPatch (s : String) : Except String (Word × Word) :=
  let (address, rest) := s.toList.span (· ≠ '=')
  match rest with
  | [] => .error s!"expected ADDR=VALUE, got {Text.quote s}"
  | _ :: value => do
    let a ← readSide "address" (String.ofList address)
    let w ← readSide "value" (String.ofList value)
    return (a, w)

namespace Arguments

def has (a : Arguments) : Parameter → Bool
  | .program => a.program.isSome
  | .log => a.log.isSome
  | .input => a.input.isSome
  | .target => a.target.isSome
  | .interactive => a.interactive
  | .feedback => a.feedback
  | .startWhite => a.startWhite
  | .freePlay => a.freePlay
  | .patch | .shown | .version | .help => false

def store (a : Arguments) (p : Parameter) (value : String) : Except UsageError Arguments :=
  let refuse (reason : String) : UsageError := .invalidValue p value reason
  match p with
  | .program =>
    if value.isEmpty then .error (.missingValue p) else .ok { a with program := some value }
  | .log => .ok { a with log := some value }
  | .input =>
    match Batch.ofText value with
    | .ok batch => .ok { a with input := some batch }
    | .error cause => .error (refuse cause.message)
  | .patch =>
    match readPatch value with
    | .ok patch => .ok { a with patches := a.patches ++ [patch] }
    | .error reason => .error (refuse reason)
  | .shown =>
    match Word.parse value with
    | .ok w => .ok { a with shown := a.shown ++ [w] }
    | .error e => .error (refuse e.message)
  | .target =>
    match Word.parse value with
    | .ok w => .ok { a with target := some w }
    | .error e => .error (refuse e.message)
  | .interactive => .ok { a with interactive := true }
  | .feedback => .ok { a with feedback := true }
  | .startWhite => .ok { a with startWhite := true }
  | .freePlay => .ok { a with freePlay := true }
  | .version | .help => .ok a

def supply (a : Arguments) (p : Parameter) (value : String) : Except UsageError Arguments :=
  if a.has p then .error (.repeated p) else a.store p value

end Arguments

end WordMachine.Command
