import WordMachine.Log.Filter

namespace WordMachine

namespace Machine

def registers (m : Machine) : Event :=
  .registers m.ip m.relativeBase (m.memory.get m.ip) m.inbox.size m.state

def noted (f : Filter) (events : List Event) (e : Event) : List Event :=
  if f.keepsEvent e then e :: events else events

def upcoming (m : Machine) (events : List Event) : List Event :=
  match m.fetch with
  | .error _ => events
  | .ok i => .executing m.ip i :: events

/-- Follows the instructions of a call after `outputs` words of output, the latest event first.
Single instructions are noted only if they are traced. -/
def reportFrom (f : Filter) (traced : Bool) : Nat → Machine → Nat → List Event → List Event
  | 0, _, _, events => events
  | fuel + 1, m, outputs, events =>
    let events := if traced then m.upcoming events else events
    match m.step with
    | .next m none => reportFrom f traced fuel m outputs events
    | .next m (some _) => reportFrom f traced fuel m (outputs + 1) events
    | .waiting m =>
      noted f (noted f events (.waiting m.ip)) (.returning m.ip outputs m.state)
    | .halted m =>
      noted f (noted f events (.halted m.ip)) (.returning m.ip outputs m.state)
    | .fault _ _ => events

def report (f : Filter) (fuel : Nat) (m : Machine) : List Event :=
  if m.isHalted then []
  else
    (reportFrom f (f.keeps Event.machineTarget .trace) fuel { m with state := .active } 0
      (noted f [] (.resuming m.ip m.inbox.size))).reverse

end Machine

end WordMachine
