import Std.Data.TreeMap
import WordMachine.Device.Error
import WordMachine.Grid.Rendering
import WordMachine.Session

/-!
The arcade cabinet. Its machine puts out triples: a position and the tile to draw there, or the
score at a position beside the screen. Whenever it waits, it gets the deflection of the joystick.
-/

namespace WordMachine

inductive Joystick
  | track
  | neutral
  deriving DecidableEq

/-- An order in which the tiles on a screen are looked through. It may be another one in every
round. -/
structure Scan where
  listing : Nat → Std.TreeMap Position Tile → List (Position × Tile)
  perm_toList : ∀ round tiles, (listing round tiles).Perm tiles.toList

def Scan.byPosition : Scan where
  listing _ tiles := tiles.toList
  perm_toList _ _ := .refl _

structure Cabinet where
  machine : Machine
  tiles : Std.TreeMap Position Tile := ∅
  score : Word := 0

namespace Cabinet

def scorePosition : Position := ⟨-1, 0⟩

def paid (m : Machine) : Except DeviceError Cabinet :=
  match m.write 0 2 with
  | .ok machine => .ok { machine }
  | .error cause => .error (.machine cause)

def tileAt (c : Cabinet) (position : Position) : Tile := c.tiles.getD position .empty

def blocks (c : Cabinet) : Nat :=
  (c.tiles.toList.filter fun (_, tile) => tile = .block).length

def drawAll (c : Cabinet) : List Word → Cabinet × Except DeviceError Unit
  | x :: y :: id :: rest =>
    let position : Position := ⟨x.toInt, y.toInt⟩
    if position = scorePosition then { c with score := id }.drawAll rest
    else
      match Tile.ofWord? id with
      | none => (c, .error (.unknownTile id))
      | some tile => { c with tiles := c.tiles.insert position tile }.drawAll rest
  | _ => (c, .ok ())

def drawBatch (c : Cabinet) (output : List Word) : Cabinet × Except DeviceError Unit :=
  if output.length % 3 ≠ 0 then (c, .error (.unexpectedOutput 3 output.length))
  else c.drawAll output

def locate? (listing : List (Position × Tile)) (tile : Tile) : Option Position :=
  (listing.find? fun (_, t) => t = tile).map Prod.fst

def deflection (c : Cabinet) (scan : Scan) (round : Nat) : Joystick → Except DeviceError Word
  | .neutral => .ok 0
  | .track =>
    let listing := scan.listing round c.tiles
    match locate? listing .ball with
    | none => .error (.missingTile .ball)
    | some ball =>
      match locate? listing .paddle with
      | none => .error (.missingTile .paddle)
      -- The difference is taken on words, and wraps where no word holds it.
      | some paddle => .ok (Word.sign (Int64.ofInt ball.x - Int64.ofInt paddle.x))

def runFrom (scan : Scan) (joystick : Joystick) :
    Nat → Nat → Cabinet → Session (Cabinet × Except DeviceError Word)
  | 0, _, _ => .exhausted
  | fuel + 1, round, c => do
    let reply ← Session.call c.machine
    let c := { c with machine := reply.machine }
    match reply.result with
    | .error cause => return (c, .error (.machine cause))
    | .ok output =>
      match c.drawBatch output with
      | (c, .error e) => return (c, .error e)
      | (c, .ok ()) =>
        if c.machine.isHalted then
          Session.log (.gameOver c.score c.blocks)
          return (c, .ok c.score)
        else
          match c.deflection scan round joystick with
          | .error e => return (c, .error e)
          | .ok w =>
            match c.machine.feed [w] with
            | .error cause => return (c, .error (.machine cause))
            | .ok machine => runFrom scan joystick fuel (round + 1) { c with machine }

def run (joystick : Joystick) (fuel : Nat) (c : Cabinet) :
    Session (Cabinet × Except DeviceError Word) :=
  runFrom .byPosition joystick fuel 0 c

def render (c : Cabinet) : String := Grid.render c.tiles.keys fun p => (c.tileAt p).symbol

end Cabinet

end WordMachine
