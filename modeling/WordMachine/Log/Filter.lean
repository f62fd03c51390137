import WordMachine.Log.Event
import WordMachine.Text.Alphanumeric
import WordMachine.Text.Blank

/-!
Filters: which log events are kept. A directive sets the most verbose level kept for the targets
that begin with its own; of several that apply, the one with the longest target decides.
-/

namespace WordMachine

structure Directive where
  target : String
  level : Option Level
  deriving DecidableEq

structure Filter where
  directives : List Directive
  deriving DecidableEq

namespace Level

def number? (s : String) : Option Nat :=
  let digits := match s.toList with
    | '+' :: rest => rest
    | cs => cs
  if digits.isEmpty || !digits.all Char.isDigit then none
  else some (digits.foldl (fun n c => 10 * n + (c.toNat - '0'.toNat)) 0)

def ofNumber? : Nat → Option (Option Level)
  | 0 => some none
  | 1 => some (some .error)
  | 2 => some (some .warn)
  | 3 => some (some .info)
  | 4 => some (some .debug)
  | 5 => some (some .trace)
  | _ => none

def parse? (s : String) : Option (Option Level) :=
  match s.toLower with
  | "off" => some none
  | "error" => some (some .error)
  | "warn" => some (some .warn)
  | "info" => some (some .info)
  | "debug" => some (some .debug)
  | "trace" => some (some .trace)
  | _ => (number? s).bind ofNumber?

end Level

namespace Directive

def isInitial (c : Char) : Bool :=
  Text.isAlphanumeric c || c == '_' || c == ':' || c == '-' || c == '['

def split? (cs : List Char) : Option (List Char × Option (List Char)) :=
  match cs.span fun c => c ≠ '=' && c ≠ '[' with
  | (target, []) => some (target, none)
  | (target, '=' :: word) => some (target, some word)
  | (target, bracket :: rest) =>
    match rest.span (· ≠ ']') with
    | (span, [close]) => some (target ++ bracket :: span ++ [close], none)
    | (span, close :: '=' :: word) => some (target ++ bracket :: span ++ [close], some word)
    | _ => none

/-- A level for every target, a target with its level, or a target kept at every level. Blanks
belong to the target or the level beside them, but no level can be written to a target with a blank
in front. -/
def parse? (s : String) : Option Directive := do
  let initial ← s.toList.find? (!Text.isBlank ·)
  let (target, word) ← if isInitial initial then split? s.toList else none
  match word with
  | none =>
    match Level.parse? s with
    | some level => return ⟨"", level⟩
    | none => return ⟨s, some .trace⟩
  | some word =>
    if target.head?.any Text.isBlank then none
    else if word.isEmpty then return ⟨String.ofList target, some .trace⟩
    else return ⟨String.ofList target, ← Level.parse? (String.ofList word)⟩

def prefer (earlier : Option Directive) (later : Directive) : Directive :=
  match earlier with
  | some d => if later.target.length < d.target.length then d else later
  | none => later

end Directive

namespace Filter

def silent : Filter := ⟨[]⟩

def upTo (level : Level) : Filter := ⟨[⟨"", some level⟩]⟩

def parse? (s : String) : Option Filter := do
  let words := (s.splitOn ",").filter (· ≠ "")
  let directives ← words.mapM Directive.parse?
  return ⟨directives⟩

def deciding? (f : Filter) (target : String) : Option Directive :=
  (f.directives.filter fun d => d.target.toList.isPrefixOf target.toList).foldl
    (fun best d => some (Directive.prefer best d)) none

def keeps (f : Filter) (target : String) (level : Level) : Bool :=
  match f.deciding? target with
  | some ⟨_, some most⟩ => level.rank ≤ most.rank
  | _ => false

def keepsEvent (f : Filter) (e : Event) : Bool := f.keeps e.target e.level

def keepsMachines (f : Filter) : Bool := f.keeps Event.machineTarget .debug

end Filter

end WordMachine
