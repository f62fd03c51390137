import WordMachine.Grid.Position
import WordMachine.Word.Basic

namespace WordMachine

inductive Direction
  | north
  | south
  | west
  | east
  deriving DecidableEq

namespace Direction

def all : List Direction := [.north, .south, .west, .east]

def toWord : Direction → Word
  | .north => 1
  | .south => 2
  | .west => 3
  | .east => 4

def neighbour (d : Direction) (p : Position) : Position :=
  match d with
  | .north => ⟨p.x, p.y - 1⟩
  | .south => ⟨p.x, p.y + 1⟩
  | .west => ⟨p.x - 1, p.y⟩
  | .east => ⟨p.x + 1, p.y⟩

end Direction

end WordMachine
