import WordMachine.Command.Reading

namespace WordMachine.Command

inductive Action
  | run (program : String) (input : Option (List Word)) (patches : List (Word × Word))
    (shown : List Word) (interactive : Bool)
  | amplify (program : String) (feedback : Bool)
  | paint (program : String) (startWhite : Bool)
  | arcade (program : String) (freePlay : Bool)
  | droid (program : String)
  | search (program : String) (target : Word)

def Action.ofArguments? (subcommand : Subcommand) (a : Arguments) : Option Action := do
  let program ← a.program
  match subcommand with
  | .run => return .run program a.input a.patches a.shown a.interactive
  | .amplify => return .amplify program a.feedback
  | .paint => return .paint program a.startWhite
  | .arcade => return .arcade program a.freePlay
  | .droid => return .droid program
  | .search =>
    let target ← a.target
    return .search program target

structure Invocation where
  log : Option String
  action : Action

def Invocation.parse (arguments : List String) : Except Stop Invocation := do
  let (leading, subcommand, rest) ←
    { known := leadingParameters : Reading }.readLeading arguments
  let reading ← { known := subcommand.parameters : Reading }.readAll rest
  match Action.ofArguments? subcommand reading.arguments with
  | none =>
    let missing := subcommand.required.filter fun p => !reading.arguments.has p
    .error (.usage (.missingParameters missing))
  | some action =>
    let leading ← leading.settle
    return { log := reading.arguments.log <|> leading.arguments.log, action }

end WordMachine.Command
