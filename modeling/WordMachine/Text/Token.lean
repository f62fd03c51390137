import WordMachine.Text.Blank

namespace WordMachine.Text

def isSeparator (c : Char) : Bool := c == ',' || isBlank c

def closeToken (found : List String) (current : List Char) : List String :=
  if current.isEmpty then found else String.ofList current.reverse :: found

def tokensFrom (found : List String) (current : List Char) : List Char → List String
  | [] => (closeToken found current).reverse
  | c :: rest =>
    if isSeparator c then tokensFrom (closeToken found current) [] rest
    else tokensFrom found (c :: current) rest

def tokens (s : String) : List String := tokensFrom [] [] s.toList

end WordMachine.Text
