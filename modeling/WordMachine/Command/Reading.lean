import WordMachine.Command.Arguments

/-!
Reading a command line from left to right. An option takes the argument behind it or the text
written to it as its value; the first argument that is neither an option nor a value is the program.
-/

namespace WordMachine.Command

inductive Written
  | escape
  | long (name : String) (value : Option String)
  | short (letters : List Char)
  | plain
  deriving DecidableEq

def Written.ofArgument (argument : String) : Written :=
  match argument.toList with
  | ['-', '-'] => .escape
  | '-' :: '-' :: rest =>
    match rest.span (· ≠ '=') with
    | (name, []) => .long (String.ofList name) none
    | (name, _ :: value) => .long (String.ofList name) (some (String.ofList value))
  | '-' :: c :: rest => .short (c :: rest)
  | _ => .plain

inductive Stop
  | usage (e : UsageError)
  | nothingGiven
  | version
  | help
  deriving DecidableEq

/-- A command line read so far. A value is checked only when the next parameter settles it. -/
structure Reading where
  known : List Parameter
  arguments : Arguments := {}
  pending : Option (Parameter × Option String) := none
  programSeen : Bool := false

namespace Reading

def supply (r : Reading) (p : Parameter) (value : String) : Except Stop Reading :=
  match r.arguments.supply p value with
  | .ok arguments => .ok { r with arguments }
  | .error e => .error (.usage e)

def settle (r : Reading) : Except Stop Reading :=
  match r.pending with
  | none => .ok r
  | some (p, none) => .error (.usage (.missingValue p))
  | some (p, some value) => { r with pending := none }.supply p value

def claimant? (r : Reading) (argument : String) : Option Parameter :=
  match r.pending with
  | some (p, none) =>
    if p.takesDashes || Written.ofArgument argument = .plain then some p else none
  | _ => none

def option (r : Reading) (p : Parameter) (value : Option String) : Except Stop Reading := do
  let r ← r.settle
  match value with
  | some value => r.supply p value
  | none => return { r with pending := some (p, none) }

def flag (r : Reading) (p : Parameter) : Except Stop Reading := do
  let r ← r.settle
  match p with
  | .version => .error .version
  | .help => .error .help
  | p => r.supply p ""

def long (r : Reading) (name : String) (value : Option String) : Except Stop Reading :=
  match r.known.find? fun p => p.long? = some name with
  | none => .error (.usage (.unexpectedArgument ("--" ++ name)))
  | some p =>
    if p.takesValue then r.option p value
    else
      match value with
      | some value => .error (.usage (.unexpectedValue p value))
      | none => r.flag p

/-- Letters after one dash: flags, up to a parameter that takes the remaining letters as its value,
without an equals sign in front. -/
def short (r : Reading) : List Char → Except Stop Reading
  | [] => .ok r
  | c :: rest =>
    match r.known.find? fun p => p.short? = some c with
    | none => .error (.usage (.unexpectedArgument (String.ofList ['-', c])))
    | some p =>
      if p.takesValue then
        match rest with
        | [] => r.option p none
        | '=' :: value => r.option p (some (String.ofList value))
        | value => r.option p (some (String.ofList value))
      else do
        let r ← r.flag p
        r.short rest

def place (r : Reading) (argument : String) : Except Stop Reading :=
  if r.programSeen then .error (.usage (.unexpectedArgument argument))
  else do
    let r ← r.settle
    return { r with pending := some (.program, some argument), programSeen := true }

def readAll (r : Reading) : List String → Except Stop Reading
  | [] => r.settle
  | argument :: rest =>
    match r.claimant? argument with
    | some p => { r with pending := some (p, some argument) }.readAll rest
    | none =>
      match Written.ofArgument argument with
      | .escape => do
        let r ← rest.foldlM place r
        r.settle
      | .long name value => do
        let r ← r.long name value
        r.readAll rest
      | .short letters => do
        let r ← r.short letters
        r.readAll rest
      | .plain => do
        let r ← r.place argument
        r.readAll rest

def ended (r : Reading) : Stop :=
  match r.settle with
  | .error stop => stop
  | .ok r => if r.arguments.log.isSome then .usage .missingSubcommand else .nothingGiven

/-- The arguments behind `help` name one subcommand, which may be `help` itself, or none. -/
def helpOn : List String → Stop
  | [] => .help
  | name :: rest =>
    if (Subcommand.ofName? name).isSome || name = "help" then
      match rest with
      | [] => .help
      | extra :: _ => .usage (.unknownSubcommand extra)
    else .usage (.unknownSubcommand name)

def noSubcommand (argument : String) (rest : List String) : Stop :=
  if argument = "help" then helpOn rest else .usage (.unknownSubcommand argument)

def escaped (argument : String) : Stop :=
  if (Subcommand.ofName? argument).isSome || argument = "help" then
    .usage (.unexpectedArgument argument)
  else .usage (.unknownSubcommand argument)

def readLeading (r : Reading) :
    List String → Except Stop (Reading × Subcommand × List String)
  | [] => .error r.ended
  | argument :: rest =>
    match r.claimant? argument with
    | some p => { r with pending := some (p, some argument) }.readLeading rest
    | none =>
      match Written.ofArgument argument with
      | .escape => .error ((rest.head?.map escaped).getD r.ended)
      | .long name value => do
        let r ← r.long name value
        r.readLeading rest
      | .short letters => do
        let r ← r.short letters
        r.readLeading rest
      | .plain =>
        match Subcommand.ofName? argument with
        | some subcommand => .ok (r, subcommand, rest)
        | none => .error (noSubcommand argument rest)

end Reading

end WordMachine.Command
