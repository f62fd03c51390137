import WordMachine.Device.Tile
import WordMachine.Fault

namespace WordMachine

inductive DeviceError
  | machine (cause : Fault)
  | unexpectedOutput (expected got : Nat)
  | unknownTile (id : Word)
  | unknownStatus (status : Word)
  | invalidTurn (turn : Word)
  | invalidColour (colour : Word)
  | missingTile (tile : Tile)
  deriving DecidableEq

def DeviceError.message : DeviceError → String
  | .machine cause => cause.message
  | .unexpectedOutput expected got =>
    s!"expected output in records of {expected} values, got {got} values"
  | .unknownTile id => s!"unknown tile id {id.text}"
  | .unknownStatus status => s!"unknown droid status {status.text}"
  | .invalidTurn turn => s!"invalid turn instruction {turn.text}"
  | .invalidColour colour => s!"invalid paint colour {colour.text}"
  | .missingTile tile => s!"no {tile.name} on screen"

end WordMachine
