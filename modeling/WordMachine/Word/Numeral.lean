import WordMachine.Word.Basic

namespace WordMachine

inductive NumeralError
  | empty
  | invalidDigit
  | tooLarge
  | tooSmall
  deriving DecidableEq

def NumeralError.message : NumeralError → String
  | .empty => "cannot parse integer from empty string"
  | .invalidDigit => "invalid digit found in string"
  | .tooLarge => "number too large to fit in target type"
  | .tooSmall => "number too small to fit in target type"

namespace Word

def digit? (c : Char) : Option Nat :=
  if c.isDigit then some (c.toNat - '0'.toNat) else none

/-- Appends the digits to a word, away from zero. The first digit at fault, from the left, decides
the error. -/
def appendDigits (negative : Bool) (w : Word) : List Char → Except NumeralError Word
  | [] => .ok w
  | c :: rest =>
    match digit? c with
    | none => .error .invalidDigit
    | some d =>
      match ofInt? (if negative then w.toInt * 10 - d else w.toInt * 10 + d) with
      | none => .error (if negative then .tooSmall else .tooLarge)
      | some w => appendDigits negative w rest

def parseChars : List Char → Except NumeralError Word
  | [] => .error .empty
  | ['+'] | ['-'] => .error .invalidDigit
  | '+' :: digits => appendDigits false 0 digits
  | '-' :: digits => appendDigits true 0 digits
  | digits => appendDigits false 0 digits

def parse (s : String) : Except NumeralError Word := parseChars s.toList

end Word

end WordMachine
