import WordMachine.Fault
import WordMachine.Word.Listing

namespace WordMachine

namespace Batch

def ofToken (token : String) : Except Fault Word :=
  match Word.parse token with
  | .ok w => .ok w
  | .error _ => .error (.input (.notInteger token))

def ofText (s : String) : Except Fault (List Word) := (Text.tokens s).mapM ofToken

end Batch

structure Inbox where
  waiting : List Word := []
  deriving DecidableEq

namespace Inbox

def size (q : Inbox) : Nat := q.waiting.length

def isEmpty (q : Inbox) : Bool := q.waiting.isEmpty

def push (q : Inbox) (batch : List Word) : Except Fault Inbox :=
  if batch.isEmpty then .error (.input .emptyBatch) else .ok ⟨q.waiting ++ batch⟩

def pop? (q : Inbox) : Option (Word × Inbox) :=
  match q.waiting with
  | [] => none
  | w :: rest => some (w, ⟨rest⟩)

end Inbox

end WordMachine
