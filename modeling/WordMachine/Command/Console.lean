import WordMachine.File.Lines
import WordMachine.File.Tree
import WordMachine.Log.Event

namespace WordMachine.Command

inductive Console
  | exit (code : Nat)
  | exhausted
  | print (text : String) (next : Console)
  | complain (text : String) (next : Console)
  | log (e : Event) (next : Console)
  | load (path : String) (next : Except ReadError String → Console)
  | ask (next : Option Line → Console)

structure Transcript where
  exit : Nat := 0
  stdout : String := ""
  stderr : String := ""
  deriving DecidableEq

def logLine (stamp : String) (e : Event) : String :=
  let level := e.level.name
  stamp ++ " " ++ String.ofList (List.replicate (5 - level.length) ' ') ++ level ++ " " ++ e.text
    ++ "\n"

namespace Console

def printLine (text : String) (next : Console) : Console := .print (text ++ "\n") next

def fail (causes : List String) : Console :=
  .complain ("Error: " ++ ": ".intercalate causes ++ "\n") (.exit 1)

def replay (files : FileTree) (stamp : String) :
    Console → List Line → Transcript → Option Transcript
  | .exit code, _, t => some { t with exit := code }
  | .exhausted, _, _ => none
  | .print text next, lines, t =>
    next.replay files stamp lines { t with stdout := t.stdout ++ text }
  | .complain text next, lines, t =>
    next.replay files stamp lines { t with stderr := t.stderr ++ text }
  | .log e next, lines, t =>
    next.replay files stamp lines { t with stderr := t.stderr ++ logLine stamp e }
  | .load path next, lines, t => (next (files.read path)).replay files stamp lines t
  | .ask next, [], t => (next none).replay files stamp [] t
  | .ask next, line :: lines, t => (next (some line)).replay files stamp lines t

end Console

end WordMachine.Command
