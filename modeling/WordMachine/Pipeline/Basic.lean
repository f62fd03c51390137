import WordMachine.Session

/-!
Pipelines: machines in a row, each fed with the output of the one before it. A pass calls every
machine once, first to last; a feedback loop passes the last output back to the front.
-/

namespace WordMachine

inductive PipelineError
  | empty
  | noOutput (stage : Nat)
  | machine (cause : Fault)
  deriving DecidableEq

def PipelineError.message : PipelineError → String
  | .empty => "a pipeline needs at least one stage"
  | .noOutput stage => s!"stage {stage} produced no output"
  | .machine cause => cause.message

structure Pipeline where
  first : Machine
  rest : List Machine

namespace Pipeline

def stages (p : Pipeline) : List Machine := p.first :: p.rest

def ofStages : List Machine → Except PipelineError Pipeline
  | [] => .error .empty
  | first :: rest => .ok ⟨first, rest⟩

def ofPhases (program phases : List Word) : Except PipelineError Pipeline := do
  let fresh := Machine.ofProgram program
  match phases.mapM fun phase => fresh.feed [phase] with
  | .error cause => .error (.machine cause)
  | .ok stages => ofStages stages

def lastStage (p : Pipeline) : Nat := p.rest.length

def last (p : Pipeline) : Machine := p.rest.getLast?.getD p.first

def isHalted (p : Pipeline) : Bool := p.last.isHalted

def stage (m : Machine) (batch : List Word) : Session Reply :=
  match m.feed batch with
  | .error cause => return ⟨m, .error cause⟩
  | .ok m => Session.call m

/-- Hands the output of the stage before them, at place `place`, through the stages that follow.
A stage after a silent one is not called. The stages already called stand in `behind`, the last
first. -/
def relayFrom (behind : List Machine) (place : Nat) : List Machine → List Word →
    Session (List Machine × Except PipelineError (List Word))
  | [], batch => return (behind.reverse, .ok batch)
  | m :: rest, [] => return (behind.reverse ++ m :: rest, .error (.noOutput place))
  | m :: rest, batch => do
    let reply ← stage m batch
    match reply.result with
    | .error cause => return (behind.reverse ++ reply.machine :: rest, .error (.machine cause))
    | .ok output => relayFrom (reply.machine :: behind) (place + 1) rest output

def relay (place : Nat) (stages : List Machine) (batch : List Word) :
    Session (List Machine × Except PipelineError (List Word)) :=
  relayFrom [] place stages batch

/-- One call of every stage. The pipeline is returned as the pass left it, also when it failed. -/
def pass (p : Pipeline) (batch : List Word) :
    Session (Pipeline × Except PipelineError (List Word)) := do
  let reply ← stage p.first batch
  match reply.result with
  | .error cause => return (⟨reply.machine, p.rest⟩, .error (.machine cause))
  | .ok output =>
    let (rest, result) ← relay 0 p.rest output
    return (⟨reply.machine, rest⟩, result)

def lastWord (p : Pipeline) (output : List Word) : Except PipelineError Word :=
  match output.getLast? with
  | some w => .ok w
  | none => .error (.noOutput p.lastStage)

def amplify (p : Pipeline) (signal : Word) : Session (Pipeline × Except PipelineError Word) := do
  let (p, result) ← p.pass [signal]
  return (p, result.bind p.lastWord)

def feedbackFrom : Nat → Nat → Pipeline → List Word →
    Session (Pipeline × Except PipelineError Word)
  | 0, _, _, _ => .exhausted
  | fuel + 1, cycle, p, batch => do
    let (p, result) ← p.pass batch
    match result with
    | .error e => return (p, .error e)
    | .ok output =>
      Session.log (.cycleComplete cycle output.length)
      if p.isHalted then return (p, p.lastWord output)
      else if output.isEmpty then return (p, .error (.noOutput p.lastStage))
      else feedbackFrom fuel (cycle + 1) p output

def feedback (fuel : Nat) (p : Pipeline) (signal : Word) :
    Session (Pipeline × Except PipelineError Word) :=
  feedbackFrom fuel 0 p [signal]

@[simp] theorem relay_nil (place : Nat) (batch : List Word) :
    relay place [] batch = return ([], .ok batch) := by
  simp [relay, relayFrom]

@[simp] theorem relay_cons_nil (place : Nat) (m : Machine) (rest : List Machine) :
    relay place (m :: rest) [] = return (m :: rest, .error (.noOutput place)) := by
  simp [relay, relayFrom]

theorem relayFrom_eq_map_relay (behind : List Machine) (place : Nat) (stages : List Machine)
    (batch : List Word) :
    relayFrom behind place stages batch =
      (fun (stages, result) => (behind.reverse ++ stages, result)) <$>
        relay place stages batch := by
  induction stages generalizing behind place batch with
  | nil => simp [relay, relayFrom]
  | cons m rest ih =>
    cases batch with
    | nil => simp [relay, relayFrom]
    | cons w batch =>
      simp only [relay, relayFrom, map_bind]
      congr 1
      funext reply
      cases reply.result with
      | error cause => simp
      | ok output =>
        dsimp only
        rw [ih, ih [reply.machine]]
        simp

theorem relay_cons_cons (place : Nat) (m : Machine) (rest : List Machine) (w : Word)
    (batch : List Word) :
    relay place (m :: rest) (w :: batch) = do
      let reply ← stage m (w :: batch)
      match reply.result with
      | .error cause => return (reply.machine :: rest, .error (.machine cause))
      | .ok output =>
        let (rest, result) ← relay (place + 1) rest output
        return (reply.machine :: rest, result) := by
  simp only [relay, relayFrom]
  congr 1
  funext reply
  cases reply.result with
  | error cause => simp
  | ok output =>
    dsimp only
    rw [relayFrom_eq_map_relay]
    simp [relay]

end Pipeline

end WordMachine
