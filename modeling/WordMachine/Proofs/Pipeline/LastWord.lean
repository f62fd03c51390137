import WordMachine.Proofs.Pipeline.Composition
import WordMachine.Proofs.Pipeline.Feedback

namespace WordMachine

namespace Pipeline

theorem batch_ne_nil_of_value_pass {p : Pipeline}
    (h : (p.pass batch).value limit = some (p₁, .ok output)) : batch ≠ [] := by
  cases relays_of_value_pass h with
  | cons feed _ _ => exact (Machine.feed_eq_ok_iff.1 feed).1

theorem value_feedbackFrom_of_le {p : Pipeline}
    (h : (feedbackFrom rounds cycle p batch).value limit = some r) (le : rounds ≤ more) :
    (feedbackFrom more cycle p batch).value limit = some r := by
  induction rounds generalizing more cycle p batch with
  | zero => cases h
  | succ rounds ih =>
    obtain ⟨more, rfl⟩ : ∃ n, more = n + 1 := ⟨more - 1, by omega⟩
    have le : rounds ≤ more := by omega
    rw [feedbackFrom, Session.value_bind, Option.bind_eq_some_iff] at h ⊢
    obtain ⟨⟨p₁, result⟩, pass, h⟩ := h
    refine ⟨_, pass, ?_⟩
    cases result with
    | error e => exact h
    | ok output =>
      simp only [Session.value_bind, Session.value_log, Option.bind_some] at h ⊢
      split
      · next halted => simpa [halted] using h
      · next running =>
        rw [if_neg running] at h
        split
        · next silent => simpa [silent] using h
        · next filled =>
          rw [if_neg filled] at h
          exact ih h le

theorem feedback_unique {p : Pipeline} (h : (p.feedback rounds signal).Ends r)
    (h₁ : (p.feedback rounds₁ signal).Ends r₁) : r = r₁ :=
  Session.Ends.unique_of_bounds value_feedbackFrom_of_le h h₁

namespace Passes

theorem batch_ne_nil {p p₁ : Pipeline} (h : Passes p batch outputs p₁) : batch ≠ [] := by
  cases h with
  | last pass _ => exact batch_ne_nil_of_value_pass pass
  | next pass _ _ => exact batch_ne_nil_of_value_pass pass

theorem lastStage_eq {p p₁ : Pipeline} (h : Passes p batch outputs p₁) :
    p₁.lastStage = p.lastStage := by
  induction h with
  | last pass _ => simpa [stages, lastStage] using length_of_value_pass pass
  | next pass _ _ ih =>
    exact ih.trans (by simpa [stages, lastStage] using length_of_value_pass pass)

theorem ends_feedbackFrom {p p₁ : Pipeline} (h : Passes p batch outputs p₁) (cycle : Nat) :
    ∃ rounds before output, outputs = before ++ [output] ∧
      (feedbackFrom rounds cycle p batch).Ends (p₁, p₁.lastWord output) := by
  induction h generalizing cycle with
  | @last p p₁ batch output limit pass halted =>
    refine ⟨1, [], output, rfl, Session.Ends.bind ⟨limit, pass⟩ ?_⟩
    refine (Session.ends_log _).bind ?_
    rw [if_pos halted]
    exact Session.ends_pure _
  | @next p p₁ p₂ batch output outputs limit pass running passes ih =>
    obtain ⟨rounds, before, last, rfl, ends⟩ := ih (cycle + 1)
    refine ⟨rounds + 1, output :: before, last, rfl, Session.Ends.bind ⟨limit, pass⟩ ?_⟩
    refine (Session.ends_log _).bind ?_
    rw [if_neg running, if_neg (by simpa using passes.batch_ne_nil)]
    exact ends

end Passes

/-- If the rounds of feedback go on until the last stage halts, the loop gives the last word that
this stage has put out in any of them, provided that it has put out something in the last. If it
has not, the loop fails. -/
theorem feedback_ends_iff_of_passes (p p₁ : Pipeline) (signal w : Word) (outputs : List (List Word))
    (passes : Passes p [signal] outputs p₁) (emitted : outputs.flatten.getLast? = some w) :
    ((∃ rounds, (p.feedback rounds signal).Ends (p₁, .ok w)) ↔ outputs.getLast? ≠ some []) ∧
      (outputs.getLast? = some [] →
        ∃ rounds, (p.feedback rounds signal).Ends (p₁, .error (.noOutput p.lastStage))) := by
  obtain ⟨rounds, before, output, rfl, ends⟩ := passes.ends_feedbackFrom 0
  rw [List.getLast?_concat]
  cases output with
  | nil =>
    have silent : (p.feedback rounds signal).Ends (p₁, .error (.noOutput p.lastStage)) := by
      rw [← passes.lastStage_eq]
      exact ends
    refine ⟨⟨?_, fun spoken => absurd rfl spoken⟩, fun _ => ⟨rounds, silent⟩⟩
    rintro ⟨rounds₁, ends₁⟩
    cases feedback_unique silent ends₁
  | cons first rest =>
    have word : p₁.lastWord (first :: rest) = .ok w := by
      rw [List.flatten_append, List.flatten_singleton, List.getLast?_append] at emitted
      simp only [List.getLast?_cons, Option.some_or] at emitted
      simpa [lastWord, List.getLast?_cons] using emitted
    rw [word] at ends
    exact ⟨⟨fun _ => by simp, fun _ => ⟨rounds, ends⟩⟩, by simp⟩

theorem feedback_ends_iff_of_passes_spoken :
    let p : Pipeline := ⟨.ofProgram [3, 20, 4, 20, 3, 20, 4, 20, 104, 8, 99], []⟩
    ∃ p₁, Passes p [5] [[5], [5, 8]] p₁ ∧ ∃ rounds, (p.feedback rounds 5).Ends (p₁, .ok 8) := by
  intro p
  obtain ⟨p₁, p₂, first, running, second, halted⟩ : ∃ p₁ p₂,
      (p.pass [5]).value 9 = some (p₁, .ok [5]) ∧ p₁.isHalted = false ∧
        (p₁.pass [5]).value 9 = some (p₂, .ok [5, 8]) ∧ p₂.isHalted := by
    subst p
    exact ⟨_, _, rfl, rfl, rfl, rfl⟩
  have passes : Passes p [5] [[5], [5, 8]] p₂ :=
    .next first (by simp [running]) (.last second halted)
  obtain ⟨spoken, -⟩ := feedback_ends_iff_of_passes p p₂ 5 8 _ passes rfl
  exact ⟨p₂, passes, spoken.2 (by simp)⟩

/-- The only stage puts out a word in the first round and halts on it in the second. What it has put
out is lost. -/
theorem feedback_loses_last_word :
    let p : Pipeline := ⟨.ofProgram [3, 20, 4, 20, 3, 20, 99], []⟩
    ∃ p₁ outputs, Passes p [5] outputs p₁ ∧ outputs.flatten.getLast? = some 5 ∧
      ∀ rounds, ¬(p.feedback rounds 5).Ends (p₁, .ok 5) := by
  intro p
  obtain ⟨p₁, p₂, first, running, second, halted⟩ : ∃ p₁ p₂,
      (p.pass [5]).value 9 = some (p₁, .ok [5]) ∧ p₁.isHalted = false ∧
        (p₁.pass [5]).value 9 = some (p₂, .ok []) ∧ p₂.isHalted := by
    subst p
    exact ⟨_, _, rfl, rfl, rfl, rfl⟩
  have fails : ((p.feedback 2 5).value 9).map Prod.snd = some (.error (.noOutput 0)) := by
    subst p
    rfl
  obtain ⟨⟨p₃, result⟩, fails, rfl⟩ := Option.map_eq_some_iff.1 fails
  have passes : Passes p [5] [[5], []] p₂ :=
    .next first (by simp [running]) (.last second halted)
  refine ⟨p₂, _, passes, rfl, ?_⟩
  intro rounds ends
  cases feedback_unique ⟨9, fails⟩ ends

end Pipeline

end WordMachine
