import WordMachine.Device.Error
import WordMachine.FloorPlan
import WordMachine.Session

/-!
The repair droid. Its machine takes one move and answers with one status. Every open cell of the
plan keeps the machine of a droid that stands there, so that the next moves can be tried from it.
-/

namespace WordMachine

inductive Status
  | wall
  | moved
  | oxygen
  deriving DecidableEq

def Status.ofWord? (status : Word) : Option Status :=
  match status.toInt with
  | 0 => some .wall
  | 1 => some .moved
  | 2 => some .oxygen
  | _ => none

namespace Droid

def tryMove (m : Machine) (d : Direction) : Session (Except DeviceError (Status × Machine)) :=
  match m.feed [d.toWord] with
  | .error cause => return .error (.machine cause)
  | .ok m => do
    let reply ← Session.call m
    match reply.result with
    | .error cause => return .error (.machine cause)
    | .ok [w] =>
      match Status.ofWord? w with
      | none => return .error (.unknownStatus w)
      | some status => return .ok (status, reply.machine)
    | .ok output => return .error (.unexpectedOutput 1 output.length)

def lookAround (position : Position) (m : Machine) :
    List Direction → FloorPlan → List (Position × Machine) →
      Session (Except DeviceError (FloorPlan × List (Position × Machine)))
  | [], plan, queue => return .ok (plan, queue)
  | d :: rest, plan, queue =>
    let next := d.neighbour position
    if plan.isKnown next then lookAround position m rest plan queue
    else do
      match ← tryMove m d with
      | .error e => return .error e
      | .ok (.wall, _) => lookAround position m rest (plan.addWall next) queue
      | .ok (.moved, there) =>
        lookAround position m rest (plan.addFloor next) (queue ++ [(next, there)])
      | .ok (.oxygen, there) =>
        Session.log (.oxygenLocated next)
        lookAround position m rest { plan.addFloor next with oxygen := some next }
          (queue ++ [(next, there)])

def surveyFrom : Nat → FloorPlan → List (Position × Machine) →
    Session (Except DeviceError FloorPlan)
  | 0, _, _ => .exhausted
  | _ + 1, plan, [] => do
    Session.log (.explorationFinished plan.floor.size plan.walls.size)
    return .ok plan
  | fuel + 1, plan, (position, m) :: queue => do
    match ← lookAround position m Direction.all plan queue with
    | .error e => return .error e
    | .ok (plan, queue) => surveyFrom fuel plan queue

def survey (fuel : Nat) (m : Machine) : Session (Except DeviceError FloorPlan) :=
  surveyFrom fuel (FloorPlan.addFloor {} .origin) [(.origin, m)]

end Droid

end WordMachine
