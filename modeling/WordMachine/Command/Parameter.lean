import WordMachine.Text.Control
import WordMachine.Word.Basic

namespace WordMachine.Command

inductive Parameter
  | program
  | log
  | input
  | patch
  | shown
  | interactive
  | feedback
  | startWhite
  | freePlay
  | target
  | version
  | help
  deriving DecidableEq

namespace Parameter

def long? : Parameter → Option String
  | .program => none
  | .log => some "log"
  | .input => some "input"
  | .patch => some "set"
  | .shown => some "show"
  | .interactive => some "interactive"
  | .feedback => some "feedback"
  | .startWhite => some "start-white"
  | .freePlay => some "free-play"
  | .target => some "target"
  | .version => some "version"
  | .help => some "help"

def short? : Parameter → Option Char
  | .input => some 'i'
  | .version => some 'V'
  | .help => some 'h'
  | _ => none

def valueName? : Parameter → Option String
  | .program => some "PROGRAM"
  | .log => some "LOG"
  | .input => some "INPUT"
  | .patch => some "ADDR=VALUE"
  | .shown => some "ADDR"
  | .target => some "TARGET"
  | _ => none

def takesValue (p : Parameter) : Bool := p.valueName?.isSome

def takesDashes : Parameter → Bool
  | .input | .target => true
  | _ => false

def label (p : Parameter) : String :=
  " ".intercalate
    ((p.long?.map ("--" ++ ·)).toList ++ (p.valueName?.map fun v => "<" ++ v ++ ">").toList)

end Parameter

inductive Subcommand
  | run
  | amplify
  | paint
  | arcade
  | droid
  | search
  deriving DecidableEq

namespace Subcommand

def name : Subcommand → String
  | .run => "run"
  | .amplify => "amplify"
  | .paint => "paint"
  | .arcade => "arcade"
  | .droid => "droid"
  | .search => "search"

def all : List Subcommand := [.run, .amplify, .paint, .arcade, .droid, .search]

def ofName? (name : String) : Option Subcommand := all.find? (·.name == name)

def parameters : Subcommand → List Parameter
  | .run => [.input, .patch, .shown, .interactive, .log, .help]
  | .amplify => [.feedback, .log, .help]
  | .paint => [.startWhite, .log, .help]
  | .arcade => [.freePlay, .log, .help]
  | .droid => [.log, .help]
  | .search => [.target, .log, .help]

def required : Subcommand → List Parameter
  | .search => [.target, .program]
  | .run | .amplify | .paint | .arcade | .droid => [.program]

end Subcommand

def leadingParameters : List Parameter := [.log, .help, .version]

inductive UsageError
  | invalidValue (p : Parameter) (value reason : String)
  | missingValue (p : Parameter)
  | unexpectedArgument (argument : String)
  | repeated (p : Parameter)
  | missingParameters (ps : List Parameter)
  | unknownSubcommand (name : String)
  | missingSubcommand
  | unexpectedValue (p : Parameter) (value : String)
  deriving DecidableEq

/-- Usage errors are written for a terminal, so arguments appear in them without their controls. -/
def UsageError.message : UsageError → String
  | .invalidValue p value reason =>
    s!"invalid value '{Text.withoutControls value}' for '{p.label}': {reason}"
  | .missingValue p => s!"a value is required for '{p.label}' but none was supplied"
  | .unexpectedArgument argument => s!"unexpected argument '{Text.withoutControls argument}' found"
  | .repeated p => s!"the argument '{p.label}' cannot be used multiple times"
  | .missingParameters ps =>
    "\n".intercalate
      ("the following required arguments were not provided:" :: ps.map fun p => "  " ++ p.label)
  | .unknownSubcommand name => s!"unrecognized subcommand '{Text.withoutControls name}'"
  | .missingSubcommand => "'intcode' requires a subcommand but one was not provided"
  | .unexpectedValue p value =>
    s!"unexpected value '{Text.withoutControls value}' for '{p.label}' found; "
      ++ "no more were expected"

end WordMachine.Command
