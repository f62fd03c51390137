import Mathlib.Data.List.Forall2
import WordMachine.Proofs.Command.Console
import WordMachine.Proofs.File.Lines
import WordMachine.Proofs.Machine.Blocking

namespace WordMachine.Command

def outputText : List (List Word) → String
  | [] => ""
  | batch :: rest => Listing.text batch ++ "\n" ++ outputText rest

def cellText : List (Word × Word) → String
  | [] => ""
  | (address, w) :: rest =>
    "[" ++ address.text ++ "] = " ++ w.text ++ "\n" ++ cellText rest

def Prints (text : String) (words : List Word) (cells : List (Word × Word)) : Prop :=
  ∃ batches, batches.flatten = words ∧ (∀ batch ∈ batches, batch ≠ []) ∧
    text = outputText batches ++ cellText cells

def Holds (m : Machine) : List Word → List (Word × Word) → Prop :=
  List.Forall₂ fun address cell => cell.1 = address ∧ m.read address = .ok cell.2

def callText (output : List Word) : String :=
  if output.isEmpty then "" else Listing.text output ++ "\n"

namespace Execution

theorem showCells_enqueue (m : Machine) (words shown : List Word) :
    showCells (m.enqueue words) shown = showCells m shown := by
  induction shown with
  | nil => rfl
  | cons address rest ih =>
    have read : (m.enqueue words).read address = m.read address := rfl
    rw [showCells, showCells, read, ih]

theorem outcome?_showCells (m : Machine) (shown : List Word) :
    ∃ code text, (∀ files lines, (showCells m shown).outcome? files lines = some (code, text)) ∧
      (code = 0 → ∃ cells, Holds m shown cells ∧ text = cellText cells) := by
  induction shown with
  | nil => exact ⟨0, "", fun _ _ => rfl, fun _ => ⟨[], .nil, rfl⟩⟩
  | cons address rest ih =>
    rw [showCells]
    cases read : m.read address with
    | error cause => exact ⟨1, "", fun _ _ => rfl, by simp⟩
    | ok w =>
      obtain ⟨code, text, outcome, success⟩ := ih
      refine ⟨code, "[" ++ address.text ++ "] = " ++ w.text ++ "\n" ++ text, ?_, fun zero => ?_⟩
      · intro files lines
        simp only [Console.printLine, Console.outcome?, outcome, Option.map_some]
        rfl
      · obtain ⟨cells, holds, rfl⟩ := success zero
        exact ⟨(address, w) :: cells, .cons ⟨rfl, read⟩ holds, rfl⟩

inductive Reports (shown : List Word) : Reply → Nat → String → Prop
  | fault {m : Machine} {cause : Fault} {text : String} : Reports shown ⟨m, .error cause⟩ 1 text
  | waiting {m : Machine} {output : List Word} {text : String} :
    ¬m.isHalted → Reports shown ⟨m, .ok output⟩ 1 text
  | halted {m : Machine} {output : List Word} {batches : List (List Word)} {code : Nat}
    {rest : String} :
    m.isHalted → batches.flatten = output → (∀ batch ∈ batches, batch ≠ []) →
      (∀ files lines, (showCells m shown).outcome? files lines = some (code, rest)) →
      Reports shown ⟨m, .ok output⟩ code (outputText batches ++ rest)

namespace Reports

theorem of_showCells {m : Machine} {files : FileTree} (halted : m.isHalted)
    (h : (showCells m shown).outcome? files lines = some (code, rest)) :
    Reports shown ⟨m, .ok []⟩ code rest := by
  obtain ⟨code₁, rest₁, outcome, -⟩ := outcome?_showCells m shown
  rw [outcome] at h
  cases h
  have reports : Reports shown ⟨m, .ok []⟩ code (outputText [] ++ rest) :=
    .halted halted rfl (by simp) outcome
  simpa [outputText] using reports

theorem after (output : List Word) (h : Reports shown r code text) :
    Reports shown (r.after output) code (callText output ++ text) := by
  cases h with
  | fault => exact .fault
  | waiting running => exact .waiting running
  | @halted m words batches code rest halted flatten filled outcome =>
    subst flatten
    cases output with
    | nil => simpa [callText] using Reports.halted halted rfl filled outcome
    | cons w output =>
      have text : callText (w :: output) ++ (outputText batches ++ rest) =
          outputText ((w :: output) :: batches) ++ rest := (String.append_assoc ..).symm
      rw [text]
      refine .halted halted rfl ?_ outcome
      intro batch member
      rcases List.mem_cons.1 member with rfl | member
      · exact List.cons_ne_nil w output
      · exact filled batch member

theorem agree (h : Reports shown r code text) (h₁ : Reports shown r code₁ text₁) :
    (code = 0 ↔ code₁ = 0) ∧
      (code = 0 → ∃ m words cells, r = ⟨m, .ok words⟩ ∧ m.isHalted ∧ Holds m shown cells ∧
        Prints text words cells ∧ Prints text₁ words cells) := by
  cases h with
  | fault =>
    cases h₁
    simp
  | waiting running =>
    cases h₁ with
    | waiting => simp
    | halted halted => exact absurd halted running
  | @halted m output batches code rest halted flatten filled outcome =>
    cases h₁ with
    | waiting running => exact absurd halted running
    | @halted _ _ batches₁ code₁ rest₁ _ flatten₁ filled₁ outcome₁ =>
      obtain ⟨code₂, rest₂, outcome₂, success⟩ := outcome?_showCells m shown
      cases (outcome₂ {} []).symm.trans (outcome {} [])
      cases (outcome₂ {} []).symm.trans (outcome₁ {} [])
      refine ⟨Iff.rfl, fun zero => ?_⟩
      obtain ⟨cells, holds, rfl⟩ := success zero
      exact ⟨m, output, cells, rfl, halted, holds, ⟨batches, flatten, filled, rfl⟩,
        ⟨batches₁, flatten₁, filled₁, rfl⟩⟩

end Reports

theorem outcome?_output (output : List Word) (next : Console) (files : FileTree)
    (lines : List Line) :
    (if output.isEmpty then next else .printLine (Listing.text output) next).outcome? files lines =
      (next.outcome? files lines).map (Prod.map id (callText output ++ ·)) := by
  cases output with
  | nil =>
    change next.outcome? files lines = _
    cases next.outcome? files lines <;> simp [callText, Prod.map]
  | cons w output => rfl

theorem outcome?_feed {batch : List Word} (filled : batch ≠ []) (m : Machine)
    (next : Machine → Console) (files : FileTree) (lines : List Line) :
    (feed batch m next).outcome? files lines = (next (m.enqueue batch)).outcome? files lines := by
  rw [feed, Machine.feed_eq_enqueue m filled]

theorem converse_cases {s : Execution} {m : Machine}
    (h : (s.converse interactive shown (rounds + 1) m).outcome? files lines = some (code, text)) :
    (∃ m₁ cause, m.Calls ⟨m₁, .error cause⟩ ∧ code = 1 ∧ text = "") ∨
      ∃ m₁ output rest, m.Calls ⟨m₁, .ok output⟩ ∧ text = callText output ++ rest ∧
        (m₁.isHalted ∧ (showCells m₁ shown).outcome? files lines = some (code, rest) ∨
          ¬m₁.isHalted ∧ interactive = false ∧ code = 1 ∧ rest = "" ∨
          ¬m₁.isHalted ∧ interactive = true ∧
            (prompt s.fuel fun batch => feed batch m₁ fun m =>
              s.converse interactive shown rounds m).outcome? files lines = some (code, rest)) := by
  rw [converse, outcome?_perform, Session.value_call, Option.bind_eq_some_iff] at h
  obtain ⟨⟨m₁, result⟩, call, h⟩ := h
  have calls : m.Calls ⟨m₁, result⟩ := ⟨s.fuel, call⟩
  cases result with
  | error cause =>
    simp only [outcome?_perform, Session.value_log, Option.bind_some, Console.outcome?_fail] at h
    cases h
    exact .inl ⟨m₁, cause, calls, rfl, rfl⟩
  | ok output =>
    right
    dsimp only at h
    rw [outcome?_output, Option.map_eq_some_iff] at h
    obtain ⟨⟨code, rest⟩, outcome, ⟨⟩⟩ := h
    refine ⟨m₁, output, rest, calls, rfl, ?_⟩
    split at outcome
    case isTrue halted => exact .inl ⟨halted, outcome⟩
    case isFalse running =>
      split at outcome
      case isTrue asks => exact .inr (.inr ⟨running, asks, outcome⟩)
      case isFalse silent =>
        cases outcome
        exact .inr (.inl ⟨running, by simpa using silent, rfl, rfl⟩)

theorem prompt_cases {limit : Nat} {next : List Word → Console} {texts : List String}
    {batches : List (List Word)} (parses : texts.map Batch.ofText = batches.map .ok)
    (h : (prompt limit next).outcome? files (texts.map .ok) = some (code, text)) :
    batches.flatten = [] ∧ code = 1 ∨
      ∃ (batch : List Word) (texts₁ : List String) (batches₁ : List (List Word)), batch ≠ [] ∧
        texts₁.map Batch.ofText = batches₁.map .ok ∧
        batches.flatten = batch ++ batches₁.flatten ∧
        (next batch).outcome? files (texts₁.map .ok) = some (code, text) := by
  induction limit generalizing texts batches with
  | zero => cases h
  | succ limit ih =>
    cases texts with
    | nil =>
      cases batches with
      | nil =>
        cases h
        exact .inl ⟨rfl, rfl⟩
      | cons batch batches => cases parses
    | cons line texts =>
      cases batches with
      | nil => cases parses
      | cons batch batches =>
        simp only [List.map_cons, List.cons.injEq] at parses
        obtain ⟨parse, parses⟩ := parses
        simp only [prompt, List.map_cons, Console.outcome?, parse] at h
        cases batch with
        | nil =>
          rw [List.flatten_cons, List.nil_append]
          exact ih parses h
        | cons w batch => exact .inr ⟨w :: batch, texts, batches, by simp, parses, rfl, h⟩

theorem exists_reports_of_interactive {s : Execution} {m : Machine} {texts : List String}
    {batches : List (List Word)} (parses : texts.map Batch.ofText = batches.map .ok)
    (h : (s.converse true shown rounds m).outcome? files (texts.map .ok) = some (code, text)) :
    ∃ r, (m.enqueue batches.flatten).Calls r ∧ Reports shown r code text := by
  -- Every call is the first part of the call with all the words that are still to come.
  induction rounds generalizing m texts batches text with
  | zero => cases h
  | succ rounds ih =>
    rcases converse_cases h with ⟨m₁, cause, calls, rfl, -⟩ | ⟨m₁, output, rest, calls, rfl, next⟩
    · exact ⟨_, calls.enqueue_of_error _, .fault⟩
    · rcases next with ⟨halted, shows⟩ | ⟨running, ⟨⟩, -⟩ | ⟨running, -, prompted⟩
      · -- The lines that are left stay in the inbox of the halted machine.
        have halted₁ : (m₁.enqueue batches.flatten).isHalted := halted
        have stays : (m₁.enqueue batches.flatten).Calls ⟨m₁.enqueue batches.flatten, .ok []⟩ :=
          (Machine.calls_iff_of_halted (Machine.isHalted_iff.1 halted₁)).2 rfl
        rw [← showCells_enqueue m₁ batches.flatten] at shows
        exact ⟨_, (calls.enqueue_iff _).2 ⟨_, stays, rfl⟩,
          (Reports.of_showCells halted₁ shows).after output⟩
      · rcases prompt_cases parses prompted with
          ⟨flatten, rfl⟩ | ⟨batch, texts₁, batches₁, filled, parses₁, flatten, outcome⟩
        · rw [flatten, Machine.enqueue_nil]
          exact ⟨_, calls, .waiting running⟩
        · rw [outcome?_feed filled] at outcome
          obtain ⟨r, calls₁, reports⟩ := ih parses₁ outcome
          rw [← Machine.enqueue_append, ← flatten] at calls₁
          exact ⟨r.after output, (calls.enqueue_iff _).2 ⟨r, calls₁, rfl⟩, reports.after output⟩

theorem exists_reports_of_upfront {s : Execution} {m : Machine}
    (h : (s.converse false shown rounds m).outcome? files lines = some (code, text)) :
    ∃ r, m.Calls r ∧ Reports shown r code text := by
  cases rounds with
  | zero => cases h
  | succ rounds =>
    rcases converse_cases h with ⟨m₁, cause, calls, rfl, -⟩ | ⟨m₁, output, rest, calls, rfl, next⟩
    · exact ⟨_, calls, .fault⟩
    · rcases next with ⟨halted, shows⟩ | ⟨running, -, rfl, -⟩ | ⟨-, ⟨⟩, -⟩
      · exact ⟨_, calls, by simpa using (Reports.of_showCells halted shows).after output⟩
      · exact ⟨_, calls, .waiting running⟩

end Execution

theorem start_of_parse {arguments : List String}
    (parse : Invocation.parse arguments = .ok ⟨log, .run path input patches shown interactive⟩) :
    start fuel environment arguments =
      Execution.run ⟨fuel, environment.filter log⟩ path input patches shown interactive := by
  rw [start, parse]
  rfl

theorem outcome?_run_of_replay {arguments : List String} {stamp : String}
    (parse : Invocation.parse arguments = .ok ⟨log, .run path input patches shown interactive⟩)
    (h : (start fuel environment arguments).replay files stamp lines {} = some t) :
    (Execution.run ⟨fuel, environment.filter log⟩ path input patches shown interactive).outcome?
      files lines = some (t.exit, t.stdout) := by
  obtain ⟨text, outcome, stdout⟩ := Console.outcome?_of_replay h
  rw [start_of_parse parse] at outcome
  rw [stdout, String.empty_append]
  exact outcome

/-- A run that asks for its input, given lines that list one or more words in all, succeeds just if
the run that is given these words at once does. Both then print the output of the machine with these
words in its inbox, up to line breaks, and the cells that it holds in the end. -/
theorem interactive_agrees_with_upfront {texts : List String} {batches : List (List Word)}
    {arguments arguments₁ : List String} {stamp stamp₁ : String}
    (asks : Invocation.parse arguments = .ok ⟨log, .run path none patches shown true⟩)
    (given : Invocation.parse arguments₁ =
      .ok ⟨log₁, .run path (some batches.flatten) patches shown false⟩)
    (parses : texts.map Batch.ofText = batches.map .ok) (filled : batches.flatten ≠ [])
    (h : (start fuel environment arguments).replay files stamp (texts.map .ok) {} = some t)
    (h₁ : (start fuel₁ environment₁ arguments₁).replay files stamp₁ lines₁ {} = some t₁) :
    (t.exit = 0 ↔ t₁.exit = 0) ∧
      (t.exit = 0 → ∃ m m₁ words cells, Execution.prepared? files path patches = some m ∧
        (m.enqueue batches.flatten).Calls ⟨m₁, .ok words⟩ ∧ m₁.isHalted ∧ Holds m₁ shown cells ∧
        Prints t.stdout words cells ∧ Prints t₁.stdout words cells) := by
  have outcome := outcome?_run_of_replay asks h
  have outcome₁ := outcome?_run_of_replay given h₁
  rw [Execution.outcome?_run] at outcome outcome₁
  cases prepared : Execution.prepared? files path patches with
  | none =>
    simp only [prepared, Option.some.injEq, Prod.mk.injEq] at outcome outcome₁
    simp [← outcome.1, ← outcome₁.1]
  | some m =>
    simp only [prepared, Execution.outcome?_feed filled] at outcome outcome₁
    obtain ⟨r, calls, reports⟩ := Execution.exists_reports_of_interactive parses outcome
    obtain ⟨r₁, calls₁, reports₁⟩ := Execution.exists_reports_of_upfront outcome₁
    obtain rfl := calls.unique calls₁
    obtain ⟨iff, success⟩ := reports.agree reports₁
    refine ⟨iff, fun zero => ?_⟩
    obtain ⟨m₁, words, cells, rfl, halted, holds, prints, prints₁⟩ := success zero
    exact ⟨m, m₁, words, cells, rfl, calls, halted, holds, prints, prints₁⟩

theorem lookup_withFile (t : FileTree) (contents : ByteArray) :
    (t.withFile "p" contents).lookup "p" = .ok (.file contents) := by
  have names : FileTree.splitPath "p" = ["p"] := by
    rw [FileTree.splitPath, String.splitOn, if_neg (by decide)]
    rw [String.splitOnAux, if_neg (by decide), if_neg (by decide)]
    rw [String.splitOnAux, if_pos (by decide)]
    rfl
  unfold FileTree.withFile FileTree.resolve FileTree.lookup
  rw [names]
  rfl

theorem read_withFile (t : FileTree) (text : String) :
    (t.withFile "p" text.toUTF8).read "p" = .ok text := by
  rw [FileTree.read, lookup_withFile, String.toUTF8]
  dsimp only [bind, Except.bind]
  rw [Line.fromUTF8?_toByteArray]

def greeter : FileTree := FileTree.withFile {} "p" "4,0,3,0,4,0,99".toUTF8

theorem interactive_agrees_with_upfront_greeter :
    (start 9 {} ["run", "p", "--set", "1=6", "--show", "0", "--interactive"]).replay greeter ""
        (["", "8,-9"].map .ok) {} = some ⟨0, "99\n8\n[0] = 8\n", "input> input> "⟩ ∧
      (start 9 {} ["run", "p", "--set", "1=6", "--show", "0", "--input", "8,-9"]).replay greeter ""
        [] {} = some ⟨0, "99,8\n[0] = 8\n", ""⟩ ∧
      ∃ words cells, Prints "99\n8\n[0] = 8\n" words cells ∧
        Prints "99,8\n[0] = 8\n" words cells := by
  have asks : Invocation.parse ["run", "p", "--set", "1=6", "--show", "0", "--interactive"] =
      .ok ⟨none, .run "p" none [(1, 6)] [0] true⟩ := rfl
  have given : Invocation.parse ["run", "p", "--set", "1=6", "--show", "0", "--input", "8,-9"] =
      .ok ⟨none, .run "p" (some [8, -9]) [(1, 6)] [0] false⟩ := rfl
  have parses : ["", "8,-9"].map Batch.ofText = [[], [8, -9]].map .ok := rfl
  have replay : (start 9 {} ["run", "p", "--set", "1=6", "--show", "0", "--interactive"]).replay
      greeter "" (["", "8,-9"].map .ok) {} =
        some ⟨0, "99\n8\n[0] = 8\n", "input> input> "⟩ := by
    rw [start_of_parse asks, Execution.run, Execution.loadMachine, Execution.load, Console.replay,
      greeter, read_withFile]
    decide +kernel
  have replay₁ : (start 9 {} ["run", "p", "--set", "1=6", "--show", "0", "--input", "8,-9"]).replay
      greeter "" [] {} = some ⟨0, "99,8\n[0] = 8\n", ""⟩ := by
    rw [start_of_parse given, Execution.run, Execution.loadMachine, Execution.load, Console.replay,
      greeter, read_withFile]
    decide +kernel
  obtain ⟨-, success⟩ :=
    interactive_agrees_with_upfront asks given parses (by simp) replay replay₁
  obtain ⟨-, -, words, cells, -, -, -, -, prints, prints₁⟩ := success rfl
  exact ⟨replay, replay₁, words, cells, prints, prints₁⟩

end WordMachine.Command
