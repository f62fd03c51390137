import WordMachine.Command.Execution

namespace WordMachine.Command

namespace Console

def outcome? (files : FileTree) : Console → List Line → Option (Nat × String)
  | .exit code, _ => some (code, "")
  | .exhausted, _ => none
  | .print text next, lines => (next.outcome? files lines).map (Prod.map id (text ++ ·))
  | .complain _ next, lines => next.outcome? files lines
  | .log _ next, lines => next.outcome? files lines
  | .load path next, lines => (next (files.read path)).outcome? files lines
  | .ask next, [] => (next none).outcome? files []
  | .ask next, line :: lines => (next (some line)).outcome? files lines

theorem outcome?_of_replay {c : Console} {stamp : String}
    (h : c.replay files stamp lines t = some t₁) :
    ∃ text, c.outcome? files lines = some (t₁.exit, text) ∧ t₁.stdout = t.stdout ++ text := by
  induction c generalizing lines t with
  | exit code =>
    cases h
    exact ⟨"", rfl, String.append_empty.symm⟩
  | exhausted => cases h
  | print text next ih =>
    obtain ⟨rest, outcome, stdout⟩ := ih h
    exact ⟨text ++ rest, by simp [outcome?, outcome], by rw [stdout, String.append_assoc]⟩
  | complain text next ih =>
    obtain ⟨rest, outcome, stdout⟩ := ih h
    exact ⟨rest, outcome, stdout⟩
  | log e next ih =>
    obtain ⟨rest, outcome, stdout⟩ := ih h
    exact ⟨rest, outcome, stdout⟩
  | load path next ih => exact ih _ h
  | ask next ih =>
    cases lines with
    | nil => exact ih none h
    | cons line lines => exact ih (some line) h

theorem outcome?_foldr_log (events : List Event) (c : Console) (files : FileTree)
    (lines : List Line) :
    (events.foldr log c).outcome? files lines = c.outcome? files lines := by
  induction events with
  | nil => rfl
  | cons e events ih => exact ih

@[simp] theorem outcome?_fail (causes : List String) (files : FileTree) (lines : List Line) :
    (fail causes).outcome? files lines = some (1, "") := rfl

end Console

namespace Execution

theorem outcome?_perform (s : Execution) (session : Session α) (next : α → Console)
    (files : FileTree) (lines : List Line) :
    (s.perform session next).outcome? files lines =
      (session.value s.fuel).bind fun a => (next a).outcome? files lines := by
  unfold perform
  rw [← Session.map_fst_perform s.fuel s.filter session #[]]
  cases session.perform s.fuel s.filter #[] with
  | none => rfl
  | some left =>
    dsimp only
    rw [← Array.foldr_toList, Console.outcome?_foldr_log]
    rfl

def machineAt? (files : FileTree) (path : String) : Option Machine :=
  match files.read path with
  | .error _ => none
  | .ok text => (Program.ofText text).toOption.map .ofProgram

theorem outcome?_loadMachine (s : Execution) (path : String) (next : Machine → Console)
    (files : FileTree) (lines : List Line) :
    (s.loadMachine path next).outcome? files lines =
      match machineAt? files path with
      | none => some (1, "")
      | some m => (next m).outcome? files lines := by
  unfold loadMachine load machineAt?
  rw [Console.outcome?, outcome?_perform]
  cases files.read path with
  | error cause => rfl
  | ok text =>
    simp only [Program.ofFile]
    cases Program.ofText text with
    | error e => rfl
    | ok words => rfl

def patched (patches : List (Word × Word)) (m : Machine) : Except Fault Machine :=
  patches.foldlM (fun m change => m.write change.1 change.2) m

theorem outcome?_patch (patches : List (Word × Word)) (m : Machine) (next : Machine → Console)
    (files : FileTree) (lines : List Line) :
    (patch patches m next).outcome? files lines =
      match patched patches m with
      | .error _ => some (1, "")
      | .ok m => (next m).outcome? files lines := by
  induction patches generalizing m with
  | nil => rfl
  | cons change rest ih =>
    obtain ⟨address, w⟩ := change
    rw [patch, patched, List.foldlM_cons]
    cases m.write address w with
    | error cause => rfl
    | ok m₁ => exact ih m₁

def prepared? (files : FileTree) (path : String) (patches : List (Word × Word)) :
    Option Machine := do
  let m ← machineAt? files path
  (patched patches m).toOption

theorem outcome?_run (s : Execution) (path : String) (input : Option (List Word))
    (patches : List (Word × Word)) (shown : List Word) (interactive : Bool) (files : FileTree)
    (lines : List Line) :
    (s.run path input patches shown interactive).outcome? files lines =
      match prepared? files path patches with
      | none => some (1, "")
      | some m =>
        match input with
        | none => (s.converse interactive shown s.fuel m).outcome? files lines
        | some batch =>
          (feed batch m fun m => s.converse interactive shown s.fuel m).outcome? files lines := by
  unfold run prepared?
  rw [outcome?_loadMachine]
  cases machineAt? files path with
  | none => rfl
  | some m =>
    simp only [outcome?_patch, Option.bind_eq_bind, Option.bind_some]
    cases patched patches m with
    | error cause => rfl
    | ok m₁ => cases input <;> rfl

end Execution

end WordMachine.Command
