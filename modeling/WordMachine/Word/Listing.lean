import WordMachine.Text.Token
import WordMachine.Word.Numeral

namespace WordMachine

/-- The first token of a listing that is no numeral, and how many tokens stand before it. -/
structure BadToken where
  token : String
  position : Nat
  deriving DecidableEq

namespace Listing

def parseToken (token : String) (position : Nat) : Except BadToken Word :=
  match Word.parse token with
  | .ok w => .ok w
  | .error _ => .error ⟨token, position⟩

def parse (s : String) : Except BadToken (List Word) :=
  (Text.tokens s).zipIdx.mapM fun (token, position) => parseToken token position

def text (words : List Word) : String := ",".intercalate (words.map Word.text)

def bracketed (words : List Word) : String :=
  "[" ++ ", ".intercalate (words.map Word.text) ++ "]"

end Listing

end WordMachine
