import WordMachine.Word.Basic

namespace WordMachine

inductive Tile
  | empty
  | wall
  | block
  | paddle
  | ball
  deriving DecidableEq

namespace Tile

def ofWord? (id : Word) : Option Tile :=
  match id.toInt with
  | 0 => some .empty
  | 1 => some .wall
  | 2 => some .block
  | 3 => some .paddle
  | 4 => some .ball
  | _ => none

def name : Tile → String
  | .empty => "empty tile"
  | .wall => "wall"
  | .block => "block"
  | .paddle => "paddle"
  | .ball => "ball"

def symbol : Tile → Char
  | .empty => '.'
  | .wall => '|'
  | .block => '#'
  | .paddle => '='
  | .ball => 'o'

end Tile

end WordMachine
