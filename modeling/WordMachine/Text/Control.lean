/-!
Control sequences of terminals and their removal from text. A sequence begins with an escape
character; what stands outside of all sequences is text, apart from the control characters in it.
-/

namespace WordMachine.Text

inductive Control
  | outside
  | escape
  | escapeIntermediate
  | parameters
  /-- A command of the operating system, such as a title, up to a bell. -/
  | command
  | device
  | deviceParameters
  | deviceIntermediate
  /-- Text for a device or an application, up to a byte that terminates strings. -/
  | string
  deriving DecidableEq

def isLayout (c : Char) : Bool := c == '\t' || c == '\n' || c == '\x0c' || c == '\r'

def isText (c : Char) : Bool := (0x20 ≤ c.toNat && c.toNat ≠ 0x7f) || isLayout c

def stringTerminator : UInt8 := 0x9c

namespace Control

def next (place : Control) (c : Char) : Control :=
  let n := c.toNat
  if n = 0x1b then .escape
  else if n = 0x18 ∨ n = 0x1a then .outside
  else
    match place with
    | .outside => .outside
    | .escape =>
      if n < 0x20 ∨ 0x7e < n then .escape
      else if n ≤ 0x2f then .escapeIntermediate
      else
        match c with
        | '[' => .parameters
        | ']' => .command
        | 'P' => .device
        | 'X' | '^' | '_' => .string
        | _ => .outside
    | .escapeIntermediate => if 0x30 ≤ n ∧ n ≤ 0x7e then .outside else .escapeIntermediate
    | .parameters => if 0x40 ≤ n ∧ n ≤ 0x7e then .outside else .parameters
    | .command => if n = 0x07 then .outside else .command
    | .device =>
      if n < 0x20 ∨ 0x7e < n then .device
      else if n ≤ 0x2f then .deviceIntermediate
      else if n ≤ 0x3f then .deviceParameters
      else .string
    | .deviceParameters =>
      if n < 0x20 ∨ 0x7e < n then .deviceParameters
      else if n ≤ 0x2f then .deviceIntermediate
      else if n ≤ 0x3b then .deviceParameters
      else .string
    | .deviceIntermediate => if 0x30 ≤ n ∧ n ≤ 0x7e then .string else .deviceIntermediate
    | .string =>
      if (String.utf8EncodeChar c).contains stringTerminator then .outside else .string

def shows (place : Control) (c : Char) : Bool :=
  match place with
  | .outside => isText c
  | .escape | .escapeIntermediate | .parameters => isLayout c
  | _ => false

/-- The text in some characters, read from a place in a sequence. A shown character interrupts a
sequence: the text behind it is shown as well, until a control character resumes the sequence or a
character beyond ASCII gives it up. -/
def textFrom (place : Control) (interrupted : Bool) : List Char → List Char
  | [] => []
  | c :: rest =>
    if (interrupted && isText c) || place.shows c then
      c :: textFrom (if c.toNat < 0x80 then place else .outside) true rest
    else textFrom (place.next c) false rest

end Control

def withoutControls (s : String) : String :=
  String.ofList (Control.textFrom .outside false s.toList)

end WordMachine.Text
