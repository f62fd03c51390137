import WordMachine.Grid.Position
import WordMachine.Machine.Basic

namespace WordMachine

inductive Level
  | error
  | warn
  | info
  | debug
  | trace
  deriving DecidableEq

namespace Level

def rank : Level → Nat
  | .error => 1
  | .warn => 2
  | .info => 3
  | .debug => 4
  | .trace => 5

def name : Level → String
  | .error => "ERROR"
  | .warn => "WARN"
  | .info => "INFO"
  | .debug => "DEBUG"
  | .trace => "TRACE"

end Level

inductive Event
  | resuming (ip pending : Nat)
  | executing (ip : Nat) (instruction : Instruction)
  | waiting (ip : Nat)
  | halted (ip : Nat)
  | returning (ip outputs : Nat) (state : RunState)
  | registers (ip : Nat) (relativeBase word : Word) (pending : Nat) (state : RunState)
  | programLoaded (path : String) (words : Nat)
  | runFailed (noun verb : Word) (cause : Fault)
  | runWaiting (noun verb : Word)
  | pairFound (noun verb target : Word)
  | cycleComplete (cycle relayed : Nat)
  | betterPhases (signal : Word) (phases : List Word)
  | phasesSearched (feedback : Bool)
  | paintingFinished (painted white : Nat)
  | gameOver (score : Word) (blocks : Nat)
  | oxygenLocated (position : Position)
  | explorationFinished (floor walls : Nat)

namespace Event

def level : Event → Level
  | .executing .. | .runFailed .. | .runWaiting .. => .trace
  | .registers .. | .phasesSearched .. => .info
  | .resuming .. | .waiting .. | .halted .. | .returning .. | .programLoaded .. | .pairFound ..
  | .cycleComplete .. | .betterPhases .. | .paintingFinished .. | .gameOver ..
  | .oxygenLocated .. | .explorationFinished .. => .debug

def machineTarget : String := "intcode::vm"

def target : Event → String
  | .resuming .. | .executing .. | .waiting .. | .halted .. | .returning .. | .registers .. =>
    machineTarget
  | .programLoaded .. => "intcode::program"
  | .runFailed .. | .runWaiting .. | .pairFound .. => "intcode::search"
  | .cycleComplete .. | .betterPhases .. => "intcode::pipeline"
  | .phasesSearched .. => "intcode"
  | .paintingFinished .. => "intcode::controllers::robot"
  | .gameOver .. => "intcode::controllers::arcade"
  | .oxygenLocated .. | .explorationFinished .. => "intcode::controllers::droid"

def modesText (modes : List Mode) : String :=
  "[" ++ ", ".intercalate (modes.map Mode.name) ++ "]"

def text : Event → String
  | .resuming ip pending => s!"resuming ip={ip} pending={pending}"
  | .executing ip i => s!"execute ip={ip} opcode={i.opcode.name} modes={modesText i.modes}"
  | .waiting ip => s!"blocked on input ip={ip}"
  | .halted ip => s!"halt ip={ip}"
  | .returning ip outputs state =>
    s!"returning control ip={ip} outputs={outputs} state={state.text}"
  | .registers ip base word pending state =>
    s!"vm registers ip={ip} relative_base={base.text} word={word.text} pending={pending} "
      ++ s!"state={state.text}"
  | .programLoaded path words => s!"loaded program path={path} words={words}"
  | .runFailed noun verb cause =>
    s!"skipping failed run noun={noun.text} verb={verb.text} error={cause.message}"
  | .runWaiting noun verb =>
    s!"skipping run blocked on input noun={noun.text} verb={verb.text}"
  | .pairFound noun verb target =>
    s!"pair found noun={noun.text} verb={verb.text} target={target.text}"
  | .cycleComplete cycle relayed => s!"feedback cycle complete cycle={cycle} relayed={relayed}"
  | .betterPhases signal phases =>
    s!"new best phase setting signal={signal.text} phases={Listing.bracketed phases}"
  | .phasesSearched feedback => s!"phase search complete feedback={feedback}"
  | .paintingFinished painted white => s!"robot finished painted={painted} white={white}"
  | .gameOver score blocks => s!"game over score={score.text} blocks={blocks}"
  | .oxygenLocated p => s!"oxygen system located next=({p.x}, {p.y})"
  | .explorationFinished floor walls => s!"exploration finished open={floor} walls={walls}"

end Event

end WordMachine
