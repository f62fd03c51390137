import WordMachine.File.ReadError

namespace WordMachine

abbrev Line := Except ReadError String

namespace Line

def carriageReturn : UInt8 := 13

def lineFeed : UInt8 := 10

def ofBytes (bytes : List UInt8) : Line :=
  match String.fromUTF8? bytes.toByteArray with
  | some text => .ok text
  | none => .error .notUtf8

def ofEnded : List UInt8 → Line
  | b :: rest => ofBytes (if b = carriageReturn then rest else b :: rest).reverse
  | [] => ofBytes []

/-- The lines of the remaining bytes, after the bytes in reverse of a line that has begun. The last
line may lack its line feed. -/
def splitFrom (current : List UInt8) : List UInt8 → List Line
  | [] => if current.isEmpty then [] else [ofBytes current.reverse]
  | b :: rest =>
    if b = lineFeed then ofEnded current :: splitFrom [] rest else splitFrom (b :: current) rest

def split (bytes : ByteArray) : List Line := splitFrom [] bytes.toList

end Line

end WordMachine
