import WordMachine.Command.Console
import WordMachine.Command.Invocation
import WordMachine.Device.Cabinet
import WordMachine.Device.Droid
import WordMachine.Device.Painter
import WordMachine.NounVerb
import WordMachine.Pipeline.Phases
import WordMachine.Program

namespace WordMachine.Command

structure Execution where
  fuel : Nat
  filter : Filter

namespace Execution

def perform (s : Execution) (session : Session α) (next : α → Console) : Console :=
  match session.perform s.fuel s.filter #[] with
  | none => .exhausted
  | some (a, events) => events.foldr Console.log (next a)

def load (s : Execution) (path : String) (context : List String)
    (next : List Word → Console) : Console :=
  .load path fun contents =>
    s.perform (Program.ofFile path contents) fun
      | .error e => .fail (context ++ e.causes)
      | .ok program => next program

def loadMachine (s : Execution) (path : String) (next : Machine → Console) : Console :=
  s.load path ["loading " ++ path] fun program => next (.ofProgram program)

def patch (patches : List (Word × Word)) (m : Machine) (next : Machine → Console) : Console :=
  match patches with
  | [] => next m
  | (address, w) :: rest =>
    match m.write address w with
    | .error cause => .fail ["patching address " ++ address.text, cause.message]
    | .ok m => patch rest m next

def feed (batch : List Word) (m : Machine) (next : Machine → Console) : Console :=
  match m.feed batch with
  | .error cause => .fail [cause.message]
  | .ok m => next m

def showCells (m : Machine) : List Word → Console
  | [] => .exit 0
  | address :: rest =>
    match m.read address with
    | .error cause => .fail [cause.message]
    | .ok w => .printLine ("[" ++ address.text ++ "] = " ++ w.text) (showCells m rest)

def prompt : Nat → (List Word → Console) → Console
  | 0, _ => .exhausted
  | fuel + 1, next =>
    .complain "input> " <| .ask fun
      | none => .fail ["stdin closed while the program was waiting for input"]
      | some (.error e) => .fail [e.message]
      | some (.ok text) =>
        match Batch.ofText text with
        | .error cause => .fail [cause.message]
        | .ok [] => prompt fuel next
        | .ok batch => next batch

/-- Calls a machine until it has halted, for at most `fuel` calls, and prints what each call puts
out. Only an interactive run has more input for it. -/
def converse (s : Execution) (interactive : Bool) (shown : List Word) : Nat → Machine → Console
  | 0, _ => .exhausted
  | fuel + 1, m =>
    s.perform (Session.call m) fun reply =>
      let m := reply.machine
      match reply.result with
      | .error cause =>
        s.perform (Session.log m.registers) fun _ =>
          .fail [s!"program failed at ip {m.ip} (relative base {m.relativeBase.text})",
            cause.message]
      | .ok output =>
        let rest :=
          if m.isHalted then showCells m shown
          else if interactive then
            prompt s.fuel fun batch => feed batch m fun m => s.converse interactive shown fuel m
          else .fail [s!"program is waiting for input at address {m.ip}"]
        if output.isEmpty then rest else .printLine (Listing.text output) rest

def run (s : Execution) (path : String) (input : Option (List Word))
    (patches : List (Word × Word)) (shown : List Word) (interactive : Bool) : Console :=
  s.loadMachine path fun m =>
    patch patches m fun m =>
      match input with
      | none => s.converse interactive shown s.fuel m
      | some batch => feed batch m fun m => s.converse interactive shown s.fuel m

def phases (feedback : Bool) : List Word :=
  if feedback then [5, 6, 7, 8, 9] else [0, 1, 2, 3, 4]

def amplify (s : Execution) (path : String) (feedback : Bool) : Console :=
  s.load path [] fun program =>
    s.perform (Phases.best s.fuel feedback program (phases feedback)) fun
      | .error e => .fail [e.message]
      | .ok (signal, order) =>
        s.perform (Session.log (.phasesSearched feedback)) fun _ =>
          .printLine s!"highest signal {signal.text} with phases {Listing.text order}" (.exit 0)

def paint (s : Execution) (path : String) (startWhite : Bool) : Console :=
  s.loadMachine path fun m =>
    let painter : Painter := if startWhite then .onWhite m else { machine := m }
    s.perform (painter.run s.fuel) fun
      | (_, .error e) => .fail [e.message]
      | (painter, .ok ()) =>
        .printLine s!"{painter.painted.size} panels painted" <|
          .printLine painter.render (.exit 0)

def play (s : Execution) (joystick : Joystick) (cabinet : Cabinet)
    (verdict : Cabinet → String) : Console :=
  s.perform (cabinet.run joystick s.fuel) fun
    | (_, .error e) => .fail [e.message]
    | (cabinet, .ok _) => .printLine cabinet.render <| .printLine (verdict cabinet) (.exit 0)

def arcade (s : Execution) (path : String) (freePlay : Bool) : Console :=
  s.loadMachine path fun m =>
    if freePlay then
      match Cabinet.paid m with
      | .error e => .fail [e.message]
      | .ok cabinet => s.play .track cabinet fun c => s!"final score {c.score.text}"
    else s.play .neutral { machine := m } fun c => s!"{c.blocks} blocks on screen"

def oxygenText (plan : FloorPlan) : String :=
  match plan.oxygenSteps?, plan.fillTime? with
  | some steps, some minutes =>
    s!"oxygen system {steps} steps away, area filled after {minutes} minutes"
  | _, _ => "no oxygen system found"

def droid (s : Execution) (path : String) : Console :=
  s.loadMachine path fun m =>
    s.perform (Droid.survey s.fuel m) fun
      | .error e => .fail [e.message]
      | .ok plan => .printLine plan.render <| .printLine (oxygenText plan) (.exit 0)

def search (s : Execution) (path : String) (target : Word) : Console :=
  s.load path [] fun program =>
    s.perform (NounVerb.search program target) fun
      | .error cause => .fail [cause.message]
      | .ok none => .fail [s!"no noun/verb pair leaves {target.text} in address 0"]
      | .ok (some (noun, verb)) =>
        let joined := 100 * noun.toInt + verb.toInt
        .printLine s!"noun {noun.text}, verb {verb.text} ({joined})" (.exit 0)

def console (s : Execution) : Action → Console
  | .run path input patches shown interactive => s.run path input patches shown interactive
  | .amplify path feedback => s.amplify path feedback
  | .paint path startWhite => s.paint path startWhite
  | .arcade path freePlay => s.arcade path freePlay
  | .droid path => s.droid path
  | .search path target => s.search path target

end Execution

structure Environment where
  log : Option String := none
  fallback : Option String := none

def Environment.filter (e : Environment) (log : Option String) : Filter :=
  ((log <|> e.log).bind Filter.parse?
    <|> e.fallback.bind Filter.parse?).getD (.upTo .warn)

def versionText : String := "intcode 0.1.0"

def usage (c : Subcommand) : String :=
  " ".intercalate (c.name :: "<PROGRAM>" :: c.parameters.map fun p => "[" ++ p.label ++ "]")

def helpText : String :=
  "\n".intercalate
    (["Run integer programs on a resumable VM.", "", "Commands:"]
      ++ Subcommand.all.map fun c => "  " ++ usage c)

def refuse (e : UsageError) : Console := .complain ("error: " ++ e.message ++ "\n") (.exit 2)

/-- The whole program: the console of a command line. A filter from the environment counts as a
given argument. -/
def start (fuel : Nat) (environment : Environment) (arguments : List String) : Console :=
  match Invocation.parse arguments with
  | .error (.usage e) => refuse e
  | .error .nothingGiven =>
    if environment.log.isSome then refuse .missingSubcommand
    else .complain (helpText ++ "\n") (.exit 2)
  | .error .version => .printLine versionText (.exit 0)
  | .error .help => .printLine helpText (.exit 0)
  | .ok invocation =>
    Execution.console ⟨fuel, environment.filter invocation.log⟩ invocation.action

end WordMachine.Command
