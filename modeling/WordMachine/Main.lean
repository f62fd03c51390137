import WordMachine.Command.Execution

namespace WordMachine.Command

def unboundedFuel : Nat := 1000000000000000000

def errorNumber (code : UInt32) : Nat := min code.toNat (UInt32.size - code.toNat)

def readError : IO.Error → ReadError
  | .noFileOrDirectory .. => .notFound
  | .inappropriateType _ code text =>
    if errorNumber code = 20 then .notDirectory
    else if errorNumber code = 21 then .isDirectory
    else .other text
  | .invalidArgument _ code text => if errorNumber code = 36 then .nameTooLong else .other text
  | e => .other (toString e)

def readText (path : String) : IO (Except ReadError String) := do
  if path.toList.contains '\x00' then return .error .nulInName
  if path.isEmpty then return .error .notFound
  try
    let bytes ← IO.FS.readBinFile path
    match String.fromUTF8? bytes with
    | some text => return .ok text
    | none => return .error .notUtf8
  catch e => return .error (readError e)

partial def readBytes (stdin : IO.FS.Stream) (bytes : ByteArray) : IO ByteArray := do
  let byte ← stdin.read 1
  if byte.isEmpty then return bytes
  else if byte[0]? = some Line.lineFeed then return bytes ++ byte
  else readBytes stdin (bytes ++ byte)

def readLine (stdin : IO.FS.Stream) : IO (Option Line) := do
  let bytes ← readBytes stdin .empty
  return (Line.split bytes).head?

def stamp : IO String := do
  let now ← IO.monoMsNow
  return s!"{now / 1000}.{now % 1000}"

def Console.perform (stdin : IO.FS.Stream) : Console → IO UInt32
  | .exit code => return UInt32.ofNat code
  | .exhausted => return 70
  | .print text next => do
    IO.print text
    next.perform stdin
  | .complain text next => do
    IO.eprint text
    next.perform stdin
  | .log e next => do
    IO.eprint (logLine (← stamp) e)
    next.perform stdin
  | .load path next => do
    (next (← readText path)).perform stdin
  | .ask next => do
    (next (← readLine stdin)).perform stdin

end WordMachine.Command

open WordMachine.Command in
def main (arguments : List String) : IO UInt32 := do
  let log ← IO.getEnv "INTCODE_LOG"
  let fallback ← IO.getEnv "RUST_LOG"
  (start unboundedFuel { log, fallback } arguments).perform (← IO.getStdin)
