import WordMachine.Machine.Report

/-!
Sessions: what a caller does with machines. A session calls machines, notes events and ends with a
result. Its value is what it computes; performing it also collects the log, which has no influence
on the value.
-/

namespace WordMachine

inductive Session (α : Type)
  | done (a : α)
  | exhausted
  | request (m : Machine) (next : Reply → Session α)
  | note (e : Event) (next : Session α)

namespace Session

def bind : Session α → (α → Session β) → Session β
  | .done a, f => f a
  | .exhausted, _ => .exhausted
  | .request m next, f => .request m fun reply => (next reply).bind f
  | .note e next, f => .note e (next.bind f)

instance : Monad Session where
  pure := .done
  bind := bind

theorem bind_done (s : Session α) : s.bind done = s := by
  induction s with
  | done => rfl
  | exhausted => rfl
  | request m next ih =>
    simp only [bind]
    congr 1
    funext reply
    exact ih reply
  | note e next ih => simp only [bind, ih]

theorem bind_assoc (s : Session α) (f : α → Session β) (g : β → Session γ) :
    (s.bind f).bind g = s.bind fun a => (f a).bind g := by
  induction s with
  | done => rfl
  | exhausted => rfl
  | request m next ih =>
    simp only [bind]
    congr 1
    funext reply
    exact ih reply
  | note e next ih => simp only [bind, ih]

instance : LawfulMonad Session :=
  LawfulMonad.mk' Session bind_done (fun _ _ => rfl) bind_assoc

def call (m : Machine) : Session Reply := .request m .done

def log (e : Event) : Session Unit := .note e (.done ())

def value (fuel : Nat) : Session α → Option α
  | .done a => some a
  | .exhausted => none
  | .request m next =>
    match m.call fuel with
    | none => none
    | some reply => (next reply).value fuel
  | .note _ next => next.value fuel

def perform (fuel : Nat) (f : Filter) : Session α → Array Event → Option (α × Array Event)
  | .done a, log => some (a, log)
  | .exhausted, _ => none
  | .request m next, log =>
    let log := if f.keepsMachines then log ++ m.report f fuel else log
    match m.call fuel with
    | none => none
    | some reply => (next reply).perform fuel f log
  | .note e next, log => next.perform fuel f (if f.keepsEvent e then log.push e else log)

@[simp] theorem value_done (fuel : Nat) (a : α) : (done a).value fuel = some a := rfl

@[simp] theorem value_pure (fuel : Nat) (a : α) : (pure a : Session α).value fuel = some a := rfl

@[simp] theorem value_exhausted (fuel : Nat) : (exhausted : Session α).value fuel = none := rfl

@[simp] theorem value_request (fuel : Nat) (m : Machine) (next : Reply → Session α) :
    (request m next).value fuel = (m.call fuel).bind fun reply => (next reply).value fuel := by
  simp only [value]
  cases m.call fuel <;> rfl

@[simp] theorem value_note (fuel : Nat) (e : Event) (next : Session α) :
    (note e next).value fuel = next.value fuel := rfl

@[simp] theorem value_call (fuel : Nat) (m : Machine) :
    (call m).value fuel = m.call fuel := by
  simp [call]

@[simp] theorem value_log (fuel : Nat) (e : Event) : (log e).value fuel = some () := rfl

@[simp] theorem value_bind (fuel : Nat) (s : Session α) (f : α → Session β) :
    (s >>= f).value fuel = (s.value fuel).bind fun a => (f a).value fuel := by
  change (s.bind f).value fuel = _
  induction s with
  | done a => rfl
  | exhausted => rfl
  | request m next ih =>
    simp only [bind, value_request, Option.bind_assoc]
    congr 1
    funext reply
    exact ih reply
  | note e next ih => exact ih

theorem map_fst_perform (fuel : Nat) (f : Filter) (s : Session α) (log : Array Event) :
    (s.perform fuel f log).map Prod.fst = s.value fuel := by
  induction s generalizing log with
  | done a => rfl
  | exhausted => rfl
  | request m next ih =>
    simp only [perform, value]
    cases m.call fuel with
    | none => rfl
    | some reply => exact ih reply _
  | note e next ih => exact ih _

end Session

end WordMachine
