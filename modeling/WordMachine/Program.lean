import WordMachine.File.ReadError
import WordMachine.Session

namespace WordMachine

inductive ProgramError
  | unreadable (path : String) (cause : ReadError)
  | badToken (bad : BadToken)
  | empty
  deriving DecidableEq

def ProgramError.message : ProgramError → String
  | .unreadable path _ => s!"failed to read program {path}"
  | .badToken bad => s!"invalid integer {Text.quote bad.token} at position {bad.position}"
  | .empty => "program image is empty"

def ProgramError.causes (e : ProgramError) : List String :=
  match e with
  | .unreadable _ cause => [e.message, cause.message]
  | .badToken _ | .empty => [e.message]

namespace Program

def ofText (s : String) : Except ProgramError (List Word) :=
  match Listing.parse s with
  | .error bad => .error (.badToken bad)
  | .ok [] => .error .empty
  | .ok words => .ok words

def ofFile (path : String) (contents : Except ReadError String) :
    Session (Except ProgramError (List Word)) :=
  match contents with
  | .error cause => return .error (.unreadable path cause)
  | .ok text =>
    match ofText text with
    | .error e => return .error e
    | .ok words => do
      Session.log (.programLoaded path words.length)
      return .ok words

end Program

end WordMachine
