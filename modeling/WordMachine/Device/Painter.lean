import WordMachine.Device.Error
import WordMachine.Grid.Rendering
import WordMachine.Session

/-!
The hull painter. Its machine sees the colour of the panel below it, 1 for white and 0 for black,
and answers with pairs of a colour to paint and a way to turn before the painter moves on.
-/

namespace WordMachine

inductive Heading
  | up
  | right
  | down
  | left
  deriving DecidableEq

namespace Heading

def counterclockwise : Heading → Heading
  | .up => .left
  | .left => .down
  | .down => .right
  | .right => .up

def clockwise : Heading → Heading
  | .up => .right
  | .right => .down
  | .down => .left
  | .left => .up

def ahead (h : Heading) (p : Position) : Position :=
  match h with
  | .up => ⟨p.x, p.y - 1⟩
  | .right => ⟨p.x + 1, p.y⟩
  | .down => ⟨p.x, p.y + 1⟩
  | .left => ⟨p.x - 1, p.y⟩

def turn? (h : Heading) (turn : Word) : Option Heading :=
  match turn.toInt with
  | 0 => some h.counterclockwise
  | 1 => some h.clockwise
  | _ => none

end Heading

structure Painter where
  machine : Machine
  position : Position := .origin
  heading : Heading := .up
  white : Std.TreeSet Position := ∅
  painted : Std.TreeSet Position := ∅

namespace Painter

def onWhite (m : Machine) : Painter where
  machine := m
  white := Std.TreeSet.insert ∅ .origin

def isWhite (p : Painter) (position : Position) : Bool := p.white.contains position

def camera (p : Painter) : Word := Word.ofBool (p.isWhite p.position)

def paint? (p : Painter) (colour : Word) : Option Painter :=
  match colour.toInt with
  | 0 =>
    some { p with white := p.white.erase p.position, painted := p.painted.insert p.position }
  | 1 =>
    some { p with white := p.white.insert p.position, painted := p.painted.insert p.position }
  | _ => none

/-- Obeys one pair: paints, then turns and moves. A bad turn leaves the panel painted. -/
def obey (p : Painter) (colour turn : Word) : Painter × Except DeviceError Unit :=
  match p.paint? colour with
  | none => (p, .error (.invalidColour colour))
  | some p =>
    match p.heading.turn? turn with
    | none => (p, .error (.invalidTurn turn))
    | some heading => ({ p with heading, position := heading.ahead p.position }, .ok ())

def obeyAll (p : Painter) : List Word → Painter × Except DeviceError Unit
  | colour :: turn :: rest =>
    match p.obey colour turn with
    | (p, .ok ()) => p.obeyAll rest
    | (p, .error e) => (p, .error e)
  | _ => (p, .ok ())

def run : Nat → Painter → Session (Painter × Except DeviceError Unit)
  | 0, _ => .exhausted
  | fuel + 1, p =>
    if p.machine.isHalted then do
      Session.log (.paintingFinished p.painted.size p.white.size)
      return (p, .ok ())
    else
      match p.machine.feed [p.camera] with
      | .error cause => return (p, .error (.machine cause))
      | .ok m => do
        let reply ← Session.call m
        let p := { p with machine := reply.machine }
        match reply.result with
        | .error cause => return (p, .error (.machine cause))
        | .ok output =>
          if output.length % 2 ≠ 0 then
            return (p, .error (.unexpectedOutput 2 output.length))
          else
            match p.obeyAll output with
            | (p, .error e) => return (p, .error e)
            | (p, .ok ()) => run fuel p

def render (p : Painter) : String :=
  Grid.render p.white.toList fun position => if p.isWhite position then '#' else '.'

end Painter

end WordMachine
