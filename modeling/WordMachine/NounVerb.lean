import WordMachine.Session

namespace WordMachine

namespace NounVerb

def pairs : List (Word × Word) :=
  (List.range 100).flatMap fun noun =>
    (List.range 100).map fun verb => (Int64.ofNat noun, Int64.ofNat verb)

def machine (program : List Word) (noun verb : Word) : Except Fault Machine := do
  let m ← (Machine.ofProgram program).write 1 noun
  m.write 2 verb

def succeeds (program : List Word) (target noun verb : Word) : Session (Except Fault Bool) :=
  match machine program noun verb with
  | .error cause => return .error cause
  | .ok m => do
    let reply ← Session.call m
    match reply.result with
    | .error cause =>
      Session.log (.runFailed noun verb cause)
      return .ok false
    | .ok _ =>
      if reply.machine.isHalted then
        return (reply.machine.read 0).map (· == target)
      else
        Session.log (.runWaiting noun verb)
        return .ok false

def searchIn (program : List Word) (target : Word) :
    List (Word × Word) → Session (Except Fault (Option (Word × Word)))
  | [] => return .ok none
  | (noun, verb) :: rest => do
    match ← succeeds program target noun verb with
    | .error cause => return .error cause
    | .ok true =>
      Session.log (.pairFound noun verb target)
      return .ok (some (noun, verb))
    | .ok false => searchIn program target rest

def search (program : List Word) (target : Word) :
    Session (Except Fault (Option (Word × Word))) :=
  searchIn program target pairs

end NounVerb

end WordMachine
