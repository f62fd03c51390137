import WordMachine.Proofs.Command.Interaction
import WordMachine.Proofs.Command.Reading
import WordMachine.Proofs.File.Lines
import WordMachine.Proofs.Program

namespace WordMachine

/-- The outputs of the first calls of a machine that is given more input between them. -/
inductive Machine.Converses : Machine → List (List Word) → Prop
  | silent {m : Machine} : Converses m []
  | call {m m₁ : Machine} {output : List Word} {outputs : List (List Word)} (batch : List Word) :
    m.Calls ⟨m₁, .ok output⟩ → Converses (m₁.enqueue batch) outputs →
      Converses m (output :: outputs)

namespace Command

open Text

def printed (outputs : List (List Word)) : List (List Word) := outputs.filter (! ·.isEmpty)

theorem outputText_printed_cons (output : List Word) (outputs : List (List Word)) :
    outputText (printed (output :: outputs)) = callText output ++ outputText (printed outputs) := by
  cases output with
  | nil => exact String.empty_append.symm
  | cons w output => rfl

namespace Execution

theorem exists_batch_of_prompt {next : List Word → Console}
    (h : (prompt limit next).outcome? files lines = some (code, text)) :
    text = "" ∨ ∃ batch lines₁, batch ≠ [] ∧
      (next batch).outcome? files lines₁ = some (code, text) := by
  induction limit generalizing lines with
  | zero => cases h
  | succ limit ih =>
    cases lines with
    | nil =>
      cases h
      exact .inl rfl
    | cons line lines =>
      simp only [prompt, Console.outcome?] at h
      split at h
      case h_1 none => cases none
      case h_2 e _ =>
        cases h
        exact .inl rfl
      case h_3 line₁ _ =>
        split at h
        case h_1 =>
          cases h
          exact .inl rfl
        case h_2 => exact ih h
        case h_3 batch filled _ =>
          exact .inr ⟨batch, lines, filled, h⟩

theorem exists_cells_of_showCells {m : Machine}
    (h : (showCells m shown).outcome? files lines = some (code, text)) :
    ∃ cells, text = cellText cells := by
  induction shown generalizing text with
  | nil =>
    cases h
    exact ⟨[], rfl⟩
  | cons address shown ih =>
    rw [showCells] at h
    split at h
    case h_1 =>
      cases h
      exact ⟨[], rfl⟩
    case h_2 w _ =>
      rw [Console.printLine, Console.outcome?, Option.map_eq_some_iff] at h
      obtain ⟨⟨code, rest⟩, outcome, ⟨⟩⟩ := h
      obtain ⟨cells, rfl⟩ := ih outcome
      exact ⟨(address, w) :: cells, rfl⟩

theorem exists_converses {s : Execution} {m : Machine}
    (h : (s.converse interactive shown rounds m).outcome? files lines = some (code, text)) :
    ∃ outputs cells, m.Converses outputs ∧
      text = outputText (printed outputs) ++ cellText cells := by
  induction rounds generalizing m lines text with
  | zero => cases h
  | succ rounds ih =>
    rcases converse_cases h with ⟨m₁, cause, -, -, rfl⟩ | ⟨m₁, output, rest, calls, rfl, next⟩
    · exact ⟨[], [], .silent, rfl⟩
    · have last (cells : List (Word × Word)) (h : rest = cellText cells) : ∃ outputs cells,
          m.Converses outputs ∧
            callText output ++ rest = outputText (printed outputs) ++ cellText cells := by
        refine ⟨[output], cells, .call [] calls .silent, ?_⟩
        rw [outputText_printed_cons, h]
        exact congrArg (· ++ cellText cells) String.append_empty.symm
      rcases next with ⟨-, shows⟩ | ⟨-, -, -, silent⟩ | ⟨-, -, prompted⟩
      · obtain ⟨cells, shows⟩ := exists_cells_of_showCells shows
        exact last cells shows
      · exact last [] silent
      · rcases exists_batch_of_prompt prompted with silent | ⟨batch, lines₁, filled, outcome⟩
        · exact last [] silent
        · rw [outcome?_feed filled] at outcome
          obtain ⟨outputs, cells, converses, rfl⟩ := ih outcome
          refine ⟨output :: outputs, cells, .call batch calls converses, ?_⟩
          rw [outputText_printed_cons, String.append_assoc]

theorem exists_converses_of_run {s : Execution} {input : Option (List Word)}
    (h : (s.run path input patches shown interactive).outcome? files lines = some (code, text)) :
    ∃ outputs cells, (outputs = [] ∨ ∃ m, prepared? files path patches = some m ∧
        (m.enqueue (input.getD [])).Converses outputs) ∧
      text = outputText (printed outputs) ++ cellText cells := by
  rw [outcome?_run] at h
  cases prepared : prepared? files path patches with
  | none =>
    rw [prepared] at h
    cases h
    exact ⟨[], [], .inl rfl, rfl⟩
  | some m =>
    rw [prepared] at h
    cases input with
    | none =>
      obtain ⟨outputs, cells, converses, rfl⟩ := exists_converses h
      exact ⟨outputs, cells, .inr ⟨m, rfl, by rwa [Option.getD_none, Machine.enqueue_nil]⟩, rfl⟩
    | some batch =>
      by_cases filled : batch = []
      · subst filled
        cases h
        exact ⟨[], [], .inl rfl, rfl⟩
      · dsimp only at h
        rw [outcome?_feed filled] at h
        obtain ⟨outputs, cells, converses, rfl⟩ := exists_converses h
        exact ⟨outputs, cells, .inr ⟨m, rfl, converses⟩, rfl⟩

end Execution

theorem isPlain_text (words : List Word) : Line.IsPlain (Listing.text words) := by
  intro c member
  have range := Listing.toNat_of_mem_text member
  omega

theorem split_outputText_append (batches : List (List Word)) (rest : String) :
    Line.split (outputText batches ++ rest).toUTF8 =
      batches.map (fun batch => .ok (Listing.text batch)) ++ Line.split rest.toUTF8 := by
  induction batches with
  | nil => rw [outputText, String.empty_append, List.map_nil, List.nil_append]
  | cons batch batches ih =>
    rw [outputText, String.append_assoc, Line.split_append (isPlain_text batch), ih]
    rfl

/-- A line that stands for a batch, as an argument of a command line and as an answer to a
prompt. -/
structure ReadsAs (text : String) (batch : List Word) : Prop where
  argument : ∀ {filter line path patches shown interactive},
    Invocation.parse line = .ok ⟨filter, .run path none patches shown interactive⟩ →
      ∃ leading behind, line = leading ++ "run" :: behind ∧
        ∀ front rest r written, behind = front ++ rest → "--" ∉ front →
          { known := Subcommand.run.parameters : Reading }.readAll front = .ok r →
          Reading.GivesInput text written →
          Invocation.parse (leading ++ "run" :: (front ++ (written ++ rest))) =
            .ok ⟨filter, .run path (some batch) patches shown interactive⟩
  answer : ∀ fuel next files stamp lines t,
    (Execution.prompt (fuel + 1) next).replay files stamp (.ok text :: lines) t =
      (next batch).replay files stamp lines { t with stderr := t.stderr ++ "input> " }

theorem readsAs_text {batch : List Word} (filled : batch ≠ []) :
    ReadsAs (Listing.text batch) batch := by
  have listed : Batch.ofText (Listing.text batch) = .ok batch :=
    Batch.ofText_eq_ok_iff.2 (Listing.row_text batch).parse_eq_ok
  obtain ⟨c, chars, starts⟩ := List.exists_cons_of_ne_nil
    (mt String.toList_eq_nil_iff.1 (Listing.text_ne_empty filled))
  have hc : c ≠ '=' := by
    rintro rfl
    have member : '=' ∈ (Listing.text batch).toList := by simp [starts]
    exact absurd (Listing.toNat_of_mem_text member).2 (by decide)
  refine ⟨Invocation.parse_givesInput listed starts hc, fun fuel next files stamp lines t => ?_⟩
  rw [Execution.prompt, Console.replay, Console.replay]
  dsimp only
  rw [listed]
  obtain ⟨w, rest, rfl⟩ := List.exists_cons_of_ne_nil filled
  rfl

/-- Words that have been written one after the other are read back, in whatever way they are
written. In particular, each line that a run prints for a call is read as the output of that
call. -/
theorem printed_words_read_back :
    (∀ words row front rest, Listing.Row words row → IsGap front → IsGap rest →
      Batch.ofText (front ++ row ++ rest) = .ok words ∧
        (words ≠ [] → Program.ofText (front ++ row ++ rest) = .ok words)) ∧
    (∀ w : Word, w.Spells w.text) ∧ (∀ words, Listing.Row words (Listing.text words)) ∧
    ∀ fuel environment line filter path input patches shown interactive files stamp lines t,
      Invocation.parse line = .ok ⟨filter, .run path input patches shown interactive⟩ →
      (start fuel environment line).replay files stamp lines {} = some t →
      ∃ outputs cells,
        (outputs = [] ∨ ∃ m, Execution.prepared? files path patches = some m ∧
          (m.enqueue (input.getD [])).Converses outputs) ∧
        t.stdout = outputText (printed outputs) ++ cellText cells ∧
        Line.split t.stdout.toUTF8 =
          (printed outputs).map (fun batch => .ok (Listing.text batch)) ++
            Line.split (cellText cells).toUTF8 ∧
        ∀ batch ∈ printed outputs, ReadsAs (Listing.text batch) batch := by
  refine ⟨fun words row front rest written before after => ?_, Word.spells_text,
    Listing.row_text, ?_⟩
  · have parsed : Listing.parse (front ++ row ++ rest) = .ok words := by
      rw [Listing.parse_gap_append_gap before after, written.parse_eq_ok]
    exact ⟨Batch.ofText_eq_ok_iff.2 parsed, fun filled =>
      Program.ofText_eq_ok_iff.2 ⟨filled, parsed⟩⟩
  · intro fuel environment line filter path input patches shown interactive files stamp lines t
      parse replay
    obtain ⟨outputs, cells, converses, stdout⟩ :=
      Execution.exists_converses_of_run (outcome?_run_of_replay parse replay)
    refine ⟨outputs, cells, converses, stdout, ?_, fun batch member => readsAs_text ?_⟩
    · rw [stdout, split_outputText_append]
    · rintro rfl
      simp [printed] at member

theorem text_mem_of_stdout {batches : List (List Word)} {cells : List (Word × Word)}
    {text : String} (plain : Line.IsPlain text) (starts : text.toList.head? ≠ some '[')
    (h : text ++ "\n" = outputText batches ++ cellText cells) :
    ∃ batch ∈ batches, Listing.text batch = text := by
  cases batches with
  | nil =>
    have head := congrArg (·.toList.head?) h
    cases cells with
    | nil => simp [outputText, cellText] at head
    | cons cell cells =>
      cases chars : text.toList with
      | nil => simp [outputText, cellText, chars] at head
      | cons c rest =>
        simp only [chars, List.head?_cons, ne_eq, Option.some.injEq] at starts
        simp [outputText, cellText, chars, starts] at head
  | cons batch batches =>
    have lines := Line.split_append plain ""
    rw [String.append_empty, h, split_outputText_append, List.map_cons, List.cons_append] at lines
    exact ⟨batch, List.mem_cons_self, Except.ok.inj (List.cons.inj lines).1⟩

/-- Leading zeros, a sign that could be left out, gaps of several separators and the word whose
magnitude is none. A run that puts out the same words prints a line that stands for them. -/
theorem printed_words_read_back_minimum :
    Listing.Row [Int64.minValue, 7] "-009223372036854775808 ,\t+07" ∧
      Program.ofText "\n-009223372036854775808 ,\t+07," = .ok [Int64.minValue, 7] ∧
      (start 9 {} ["run", "p"]).replay
        (FileTree.withFile {} "p" "104,-9223372036854775808,104,7,99".toUTF8) "" [] {} =
          some ⟨0, "-9223372036854775808,7\n", ""⟩ ∧
      ReadsAs "-9223372036854775808,7" [Int64.minValue, 7] := by
  have first : Word.Spells Int64.minValue "-009223372036854775808" := .minus 2 (by decide)
  have second : Word.Spells 7 "+07" := .plus 1 (by decide)
  have row : Listing.Row [Int64.minValue, 7] "-009223372036854775808 ,\t+07" :=
    .cons first (by simp [IsGap]; decide) (by decide : " ,\t" ≠ "") (.single second)
  obtain ⟨written, -, -, printed⟩ := printed_words_read_back
  obtain ⟨-, read⟩ := written _ _ "\n" "," row (by simp [IsGap]; decide) (by simp [IsGap]; decide)
  have parse : Invocation.parse ["run", "p"] = .ok ⟨none, .run "p" none [] [] false⟩ := rfl
  have replay : (start 9 {} ["run", "p"]).replay
      (FileTree.withFile {} "p" "104,-9223372036854775808,104,7,99".toUTF8) "" [] {} =
        some ⟨0, "-9223372036854775808,7\n", ""⟩ := by
    rw [start_of_parse parse, Execution.run, Execution.loadMachine, Execution.load, Console.replay,
      read_withFile]
    decide +kernel
  obtain ⟨outputs, cells, -, stdout, -, reads⟩ := printed _ _ _ _ _ _ _ _ _ _ _ _ _ parse replay
  have plain : Line.IsPlain "-9223372036854775808,7" := by simp [Line.IsPlain]
  obtain ⟨batch, member, text⟩ := text_mem_of_stdout plain (by decide) stdout
  have same := (Listing.row_text batch).parse_eq_ok
  rw [text] at same
  obtain rfl : [Int64.minValue, 7] = batch := Except.ok.inj (Eq.trans rfl same)
  have reads := reads _ member
  rw [text] at reads
  exact ⟨row, read (by simp), replay, reads⟩

end Command

end WordMachine
