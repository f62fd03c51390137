import WordMachine.Proofs.Pipeline.Network
import WordMachine.Proofs.Pipeline.Relay

namespace WordMachine

namespace Pipeline

inductive Passes : Pipeline → List Word → List (List Word) → Pipeline → Prop
  | last {p p₁ : Pipeline} {batch output : List Word} {limit : Nat} :
    (p.pass batch).value limit = some (p₁, .ok output) → p₁.isHalted →
      Passes p batch [output] p₁
  | next {p p₁ p₂ : Pipeline} {batch output : List Word} {outputs : List (List Word)}
    {limit : Nat} :
    (p.pass batch).value limit = some (p₁, .ok output) → ¬p₁.isHalted →
      Passes p₁ output outputs p₂ → Passes p batch (output :: outputs) p₂

theorem passes_of_feedbackFrom {p : Pipeline}
    (h : (feedbackFrom fuel cycle p batch).value limit = some (p₁, .ok w)) :
    ∃ outputs, Passes p batch outputs p₁ ∧ outputs.flatten.getLast? = some w := by
  induction fuel generalizing cycle p batch with
  | zero => simp [feedbackFrom] at h
  | succ fuel ih =>
    simp only [feedbackFrom, Session.value_bind, Option.bind_eq_some_iff] at h
    obtain ⟨⟨p₂, result⟩, pass, h⟩ := h
    cases result with
    | error e => simp at h
    | ok output =>
      simp only [Session.value_bind, Session.value_log, Option.bind_some] at h
      split at h
      · next halted =>
        simp only [Session.value_pure, Option.some.injEq, Prod.mk.injEq] at h
        obtain ⟨rfl, word⟩ := h
        refine ⟨[output], .last pass halted, ?_⟩
        unfold lastWord at word
        split at word <;> simp_all
      · next running =>
        split at h
        · simp at h
        · obtain ⟨outputs, passes, last⟩ := ih h
          exact ⟨output :: outputs, .next pass running passes, by simp [List.getLast?_append, last]⟩

namespace Passes

theorem isHalted {p p₁ : Pipeline} (h : Passes p batch outputs p₁) : p₁.isHalted := by
  induction h with
  | last _ halted => exact halted
  | next _ _ _ ih => exact ih

theorem chain {p p₁ : Pipeline} (h : Passes p batch outputs p₁)
    (before : Chain stages₀ taken p.stages output) :
    ∃ taken₁ left, Chain stages₀ taken₁ p₁.stages (output ++ outputs.flatten) ∧
      taken₁ ++ left = taken ++ batch ++ outputs.flatten := by
  induction h generalizing taken output with
  | @last p p₁ batch more limit pass halted =>
    have after := before.relay (relays_of_value_pass pass)
    exact ⟨taken ++ batch, more, by simpa using after, by simp⟩
  | next pass _ _ ih =>
    obtain ⟨taken₁, left, after, eq⟩ := ih (before.relay (relays_of_value_pass pass))
    exact ⟨taken₁, left, by simpa using after, by simpa using eq⟩

end Passes

theorem length_stages (p : Pipeline) : p.stages.length = p.lastStage + 1 := rfl

theorem getElem?_stages_lastStage (p : Pipeline) : p.stages[p.lastStage]? = some p.last := by
  have length : p.lastStage = p.stages.length - 1 := by simp [lastStage, stages]
  rw [length, ← List.getLast?_eq_getElem?]
  simp [stages, last, List.getLast?_cons]

def stageAt (p : Pipeline) (i : Fin (p.lastStage + 1)) : Machine := p.stages.get ⟨i, i.isLt⟩

def channelAt (p : Pipeline) (signal : Word) (i : Fin (p.lastStage + 1)) : List Word :=
  if i = 0 then [signal] else []

def network (p : Pipeline) (signal : Word) : Network p.lastStage :=
  .start p.stageAt (p.channelAt signal)

theorem exists_balanced_of_passes {p p₁ : Pipeline} (h : Passes p [signal] outputs p₁) :
    ∃ c : Network p.lastStage, Network.Balanced p.stageAt (p.channelAt signal) c ∧
      c.stage (Fin.last _) = p₁.last ∧ c.emitted (Fin.last _) = outputs.flatten := by
  obtain ⟨taken, left, chain, account⟩ := h.chain (.start p.stages)
  obtain ⟨stream, first, last, each⟩ := chain.exists_streams
  have size : p₁.lastStage = p.lastStage := by
    simpa [stages, lastStage] using chain.length_eq
  rw [length_stages] at last
  refine ⟨{
    stage := fun i => p₁.stages[(i : Nat)]?.getD p₁.first
    channel := fun i => if i = 0 then left else []
    taken := fun i => stream i
    emitted := fun i => stream (i + 1) }, ⟨?_, ?_⟩, ?_, ?_⟩
  · intro i
    have bound : (i : Nat) < p.stages.length := i.isLt
    have bound₁ : (i : Nat) < p₁.stages.length := by
      rwa [chain.length_eq]
    have served := each i _ _ (List.getElem?_eq_getElem bound) (List.getElem?_eq_getElem bound₁)
    simpa [stageAt, bound₁] using served
  · intro i
    refine Fin.lastCases ?_ (fun j => ?_) i
    · simpa [channelAt, first, last] using account
    · simp [channelAt, Fin.coeSucc_eq_succ]
  · simp [← size, getElem?_stages_lastStage]
  · simpa using last

/-- Whoever calls and feeds the stages, and in whatever order: once the last stage has halted, it
has put out what it puts out in the rounds of feedback and stands where it stands after them. -/
theorem emitted_eq_of_feedback (p p₁ : Pipeline) (signal w : Word)
    (h : (p.feedback fuel signal).value limit = some (p₁, .ok w)) :
    ∃ outputs, Passes p [signal] outputs p₁ ∧ outputs.flatten.getLast? = some w ∧
      ∀ limit₁ actions c, (p.network signal).follow limit₁ actions = some c →
        (c.stage (Fin.last _)).isHalted →
        c.emitted (Fin.last _) = outputs.flatten ∧
        (c.stage (Fin.last _)).memory = p₁.last.memory ∧
        (c.stage (Fin.last _)).ip = p₁.last.ip ∧
        (c.stage (Fin.last _)).relativeBase = p₁.last.relativeBase := by
  obtain ⟨outputs, passes, result⟩ := passes_of_feedbackFrom h
  obtain ⟨c₁, balanced, last, emitted⟩ := exists_balanced_of_passes passes
  refine ⟨outputs, passes, result, ?_⟩
  intro limit₁ actions c followed halted
  have halted₁ : (c₁.stage (Fin.last _)).isHalted := by
    rw [last]
    exact passes.isHalted
  rw [← emitted, ← last]
  exact Network.eq_of_follow_of_halted followed balanced halted halted₁

theorem emitted_eq_of_feedback_ahead :
    let p : Pipeline :=
      ⟨.ofProgram [3, 30, 101, 1, 30, 30, 4, 30, 101, 1, 30, 30, 4, 30, 1105, 1, 0],
        [.ofProgram [3, 30, 4, 30, 3, 30, 4, 30, 99]]⟩
    let actions : List (Network.Action 1) := [.feed 0 1, .call 0, .feed 1 1, .call 1, .feed 0 1,
      .call 0, .feed 1 1, .call 1]
    ∃ p₁ c outputs, (p.feedback 9 5).value 99 = some (p₁, .ok 7) ∧ Passes p [5] outputs p₁ ∧
      (p.network 5).follow 99 actions = some c ∧ c.emitted 0 = [6, 7, 7, 8] ∧
      c.emitted 1 = [6, 7] ∧ outputs.flatten = [6, 7] ∧ (c.stage 1).memory = p₁.last.memory := by
  intro p actions
  have value : ((p.feedback 9 5).value 99).map Prod.snd = some (.ok 7) := by
    subst p
    rfl
  obtain ⟨⟨p₁, result⟩, value, rfl⟩ := Option.map_eq_some_iff.1 value
  have follow : ((p.network 5).follow 99 actions).map
      (fun c => ((c.stage 1).isHalted, c.emitted 0, c.emitted 1)) =
        some (true, [6, 7, 7, 8], [6, 7]) := by
    subst p
    rfl
  obtain ⟨c, follow, seen⟩ := Option.map_eq_some_iff.1 follow
  obtain ⟨outputs, passes, -, any⟩ := emitted_eq_of_feedback p p₁ 5 7 value
  simp only [Prod.mk.injEq] at seen
  obtain ⟨halted, emitted₀, emitted₁⟩ := seen
  obtain ⟨emitted, memory, -, -⟩ := any 99 actions c follow halted
  exact ⟨p₁, c, outputs, value, passes, follow, emitted₀, emitted₁, emitted.symm.trans emitted₁,
    memory⟩

end Pipeline

end WordMachine
