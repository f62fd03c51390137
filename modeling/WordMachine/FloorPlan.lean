import Std.Data.TreeMap
import WordMachine.Grid.Direction
import WordMachine.Grid.Rendering

namespace WordMachine

structure FloorPlan where
  walls : Std.TreeSet Position := ∅
  floor : Std.TreeSet Position := ∅
  oxygen : Option Position := none

namespace FloorPlan

def isKnown (plan : FloorPlan) (p : Position) : Bool :=
  plan.floor.contains p || plan.walls.contains p

def addWall (plan : FloorPlan) (p : Position) : FloorPlan :=
  { plan with walls := plan.walls.insert p }

def addFloor (plan : FloorPlan) (p : Position) : FloorPlan :=
  { plan with floor := plan.floor.insert p }

def reach (plan : FloorPlan) (distance : Nat)
    (reached : Std.TreeMap Position Nat × List Position) (p : Position) :
    Std.TreeMap Position Nat × List Position :=
  if plan.floor.contains p && !reached.1.contains p then
    (reached.1.insert p distance, p :: reached.2)
  else reached

def nextRing (plan : FloorPlan) (distance : Nat) (distances : Std.TreeMap Position Nat)
    (ring : List Position) : Std.TreeMap Position Nat × List Position :=
  (ring.flatMap fun p => Direction.all.map (·.neighbour p)).foldl (plan.reach distance)
    (distances, [])

def spread (plan : FloorPlan) :
    Nat → Nat → Std.TreeMap Position Nat → List Position → Std.TreeMap Position Nat
  | 0, _, distances, _ => distances
  | rings + 1, distance, distances, ring =>
    match plan.nextRing (distance + 1) distances ring with
    | (distances, []) => distances
    | (distances, ring) => plan.spread rings (distance + 1) distances ring

/-- The least number of steps over open floor from a cell to every cell that can be reached. Each
ring but the last holds a new floor cell, which bounds their number. -/
def distancesFrom (plan : FloorPlan) (start : Position) : Std.TreeMap Position Nat :=
  plan.spread (plan.floor.size + 1) 0 (Std.TreeMap.insert ∅ start 0) [start]

def oxygenSteps? (plan : FloorPlan) : Option Nat := do
  let oxygen ← plan.oxygen
  (plan.distancesFrom .origin)[oxygen]?

def fillTime? (plan : FloorPlan) : Option Nat := do
  let oxygen ← plan.oxygen
  (plan.distancesFrom oxygen).values.max?

def symbol (plan : FloorPlan) (p : Position) : Char :=
  if plan.walls.contains p then '#'
  else if plan.oxygen = some p then 'O'
  else if p = .origin then 'S'
  else if plan.floor.contains p then '.'
  else ' '

def render (plan : FloorPlan) : String :=
  Grid.render (plan.walls.toList ++ plan.floor.toList) plan.symbol

end FloorPlan

end WordMachine
