import Mathlib.Tactic.ByContra
import WordMachine.Device.Cabinet
import WordMachine.Device.Droid
import WordMachine.Device.Painter
import WordMachine.Pipeline.Phases
import WordMachine.Proofs.Machine.Failure
import WordMachine.Proofs.Session

namespace WordMachine

def Blameless (wrap : Fault → ε) (result : Except ε α) : Prop :=
  ∀ violation, result ≠ .error (wrap (.input violation))

abbrev BlamelessWith (wrap : Fault → ε) (left : β × Except ε α) : Prop := Blameless wrap left.2

namespace Blameless

theorem ok (wrap : Fault → ε) (a : α) : Blameless wrap (.ok a) := by
  intro violation h
  cases h

theorem error {wrap : Fault → ε} {e : ε} (h : ∀ cause, e ≠ wrap cause) :
    Blameless wrap (.error e : Except ε α) := by
  intro violation same
  exact h _ (Except.error.inj same)

theorem of_error {wrap : Fault → ε} {e : ε} (h : Blameless wrap (.error e : Except ε α)) :
    Blameless wrap (.error e : Except ε β) := by
  intro violation same
  exact h violation (congrArg _ (Except.error.inj same))

theorem wrap {wrap : Fault → ε} (injective : ∀ a b, wrap a = wrap b → a = b) {cause : Fault}
    (h : Blameless id (.error cause : Except Fault α)) :
    Blameless wrap (.error (wrap cause) : Except ε β) := by
  intro violation same
  exact h violation (congrArg _ (injective _ _ (Except.error.inj same)))

end Blameless

namespace Machine

theorem Runs.blameless {m : Machine} (h : m.Runs r) : Blameless id r.result := by
  induction h with
  | waiting => exact .ok _ _
  | halted => exact .ok _ _
  | @fault m m₁ cause step =>
    rintro violation ⟨⟩
    exact (step_fault_cases step).1
  | next _ _ ih =>
    intro violation failed
    exact ih violation (Reply.result_after_eq_error_iff.1 failed)

theorem Calls.blameless {m : Machine} (h : m.Calls r) : Blameless id r.result := by
  by_cases halted : m.state = .halted
  · rw [(calls_iff_of_halted halted).1 h]
    exact .ok _ _
  · exact ((calls_iff_runs halted).1 h).blameless

end Machine

theorem Session.ensures_call (m : Machine) : (call m).Ensures fun r => Blameless id r.result := by
  intro fuel r value
  rw [value_call] at value
  exact Machine.Calls.blameless ⟨fuel, value⟩

namespace Pipeline

open Session (Ensures)

theorem blameless_machine {cause : Fault} (h : Blameless id (.error cause : Except Fault α)) :
    Blameless PipelineError.machine (.error (.machine cause) : Except PipelineError β) :=
  .wrap (fun _ _ => PipelineError.machine.inj) h

theorem ensures_stage (m : Machine) {batch : List Word} (h : batch ≠ []) :
    (stage m batch).Ensures fun r => Blameless id r.result := by
  unfold stage
  rw [m.feed_eq_enqueue h]
  exact Session.ensures_call _

theorem ensures_relay (place : Nat) (stages : List Machine) (batch : List Word) :
    (relay place stages batch).Ensures (BlamelessWith PipelineError.machine) := by
  induction stages generalizing place batch with
  | nil =>
    rw [relay_nil]
    exact .pure (.ok _ _)
  | cons m rest ih =>
    cases batch with
    | nil =>
      rw [relay_cons_nil]
      exact .pure (.error (by simp))
    | cons w batch =>
      rw [relay_cons_cons]
      refine (ensures_stage m (List.cons_ne_nil w batch)).bind ?_
      rintro ⟨m₁, result⟩ blameless
      cases result with
      | error cause => exact .pure (blameless_machine blameless)
      | ok output => exact (ih (place + 1) output).bind fun _ blameless => .pure blameless

theorem ensures_pass (p : Pipeline) {batch : List Word} (h : batch ≠ []) :
    (p.pass batch).Ensures (BlamelessWith PipelineError.machine) := by
  unfold pass
  refine (ensures_stage p.first h).bind ?_
  rintro ⟨m₁, result⟩ blameless
  cases result with
  | error cause => exact .pure (blameless_machine blameless)
  | ok output => exact (ensures_relay 0 p.rest output).bind fun _ blameless => .pure blameless

theorem blameless_lastWord (p : Pipeline) (output : List Word) :
    Blameless PipelineError.machine (p.lastWord output) := by
  unfold lastWord
  split
  · exact .ok _ _
  · exact .error (by simp)

theorem ensures_amplify (p : Pipeline) (signal : Word) :
    (p.amplify signal).Ensures (BlamelessWith PipelineError.machine) := by
  unfold amplify
  refine (p.ensures_pass (List.cons_ne_nil signal [])).bind ?_
  rintro ⟨p₁, result⟩ blameless
  cases result with
  | error e => exact .pure (.of_error blameless)
  | ok output => exact .pure (p₁.blameless_lastWord output)

theorem ensures_feedbackFrom (fuel cycle : Nat) (p : Pipeline) {batch : List Word}
    (h : batch ≠ []) :
    (feedbackFrom fuel cycle p batch).Ensures (BlamelessWith PipelineError.machine) := by
  induction fuel generalizing cycle p batch with
  | zero => exact .exhausted _
  | succ fuel ih =>
    unfold feedbackFrom
    refine (p.ensures_pass h).bind ?_
    rintro ⟨p₁, result⟩ blameless
    cases result with
    | error e => exact .pure (.of_error blameless)
    | ok output =>
      refine Ensures.log_bind ?_
      split
      · exact .pure (p₁.blameless_lastWord output)
      · split
        · exact .pure (.error (by simp))
        · next filled => exact ih (cycle + 1) p₁ (by simpa using filled)

theorem ofPhases_eq (program phases : List Word) :
    ofPhases program phases =
      ofStages (phases.map fun phase => (Machine.ofProgram program).enqueue [phase]) := by
  have feed (phase : Word) : (Machine.ofProgram program).feed [phase] =
      Except.ok ((Machine.ofProgram program).enqueue [phase]) :=
    Machine.feed_eq_enqueue _ (by simp)
  have feeds : (phases.mapM fun phase => (Machine.ofProgram program).feed [phase]) =
      .ok (phases.map fun phase => (Machine.ofProgram program).enqueue [phase]) := by
    simp only [feed]
    exact List.mapM_pure
  simp only [ofPhases, feeds]

theorem blameless_ofStages (stages : List Machine) :
    Blameless PipelineError.machine (ofStages stages) := by
  cases stages with
  | nil => exact .error (by simp)
  | cons m rest => exact .ok _ _

end Pipeline

namespace Phases

open Session (Ensures)

theorem ensures_run_bind {x : ExceptT PipelineError Session α}
    {f : α → ExceptT PipelineError Session β}
    (h : x.run.Ensures (Blameless PipelineError.machine))
    (next : ∀ a, (f a).run.Ensures (Blameless PipelineError.machine)) :
    (x >>= f).run.Ensures (Blameless PipelineError.machine) := by
  rw [ExceptT.run_bind]
  refine h.bind ?_
  rintro (e | a) blameless
  · exact .pure (.of_error blameless)
  · exact next a

theorem ensures_signal (fuel : Nat) (feedback : Bool) (program order : List Word) :
    (signal fuel feedback program order).Ensures (Blameless PipelineError.machine) := by
  have blameless := Pipeline.blameless_ofStages
    (order.map fun phase => (Machine.ofProgram program).enqueue [phase])
  unfold signal
  rw [Pipeline.ofPhases_eq]
  split
  · next e refused =>
    rw [refused] at blameless
    exact .pure (.of_error blameless)
  · next p _ =>
    cases feedback with
    | false => exact (p.ensures_amplify 0).bind fun _ blameless => .pure blameless
    | true =>
      exact (Pipeline.ensures_feedbackFrom fuel 0 p (List.cons_ne_nil 0 [])).bind
        fun _ blameless => .pure blameless

theorem ensures_improve (fuel : Nat) (feedback : Bool) (program : List Word)
    (best : Option (Word × List Word)) (order : List Word) :
    (improve fuel feedback program best order).run.Ensures (Blameless PipelineError.machine) := by
  refine ensures_run_bind (ensures_signal fuel feedback program order) ?_
  intro w
  split
  · exact ensures_run_bind (Ensures.log_bind (.pure (Blameless.ok _ _))) fun _ => .pure (.ok _ _)
  · exact .pure (.ok _ _)

theorem ensures_foldlM_improve (fuel : Nat) (feedback : Bool) (program : List Word)
    (orders : List (List Word)) (best : Option (Word × List Word)) :
    (orders.foldlM (improve fuel feedback program) best).run.Ensures
      (Blameless PipelineError.machine) := by
  induction orders generalizing best with
  | nil => exact .pure (.ok _ _)
  | cons order orders ih =>
    rw [List.foldlM_cons]
    exact ensures_run_bind (ensures_improve fuel feedback program best order) ih

theorem ensures_best (fuel : Nat) (feedback : Bool) (program phases : List Word) :
    (best fuel feedback program phases).Ensures (Blameless PipelineError.machine) := by
  unfold best
  rw [visitOrders_eq_foldlM]
  refine ensures_run_bind (ensures_foldlM_improve fuel feedback program (orders phases) none) ?_
  rintro (_ | best)
  · exact .pure (.error (by simp))
  · exact .pure (.ok _ _)

end Phases

namespace DeviceError

theorem blameless_machine {cause : Fault} (h : Blameless id (.error cause : Except Fault α)) :
    Blameless DeviceError.machine (.error (.machine cause) : Except DeviceError β) :=
  .wrap (fun _ _ => DeviceError.machine.inj) h

end DeviceError

namespace Painter

theorem blameless_obey (p : Painter) (colour turn : Word) :
    Blameless DeviceError.machine (p.obey colour turn).2 := by
  unfold obey
  split
  · exact .error (by simp)
  · split
    · exact .error (by simp)
    · exact .ok _ _

theorem blameless_obeyAll (p : Painter) (output : List Word) :
    Blameless DeviceError.machine (p.obeyAll output).2 := by
  fun_induction obeyAll p output with
  | case1 p colour turn rest p₁ obeyed ih => exact ih
  | case2 p colour turn rest p₁ e refused =>
    have blameless := p.blameless_obey colour turn
    rwa [refused] at blameless
  | case3 => exact .ok _ _

theorem ensures_run (fuel : Nat) (p : Painter) :
    (p.run fuel).Ensures (BlamelessWith DeviceError.machine) := by
  induction fuel generalizing p with
  | zero => exact .exhausted _
  | succ fuel ih =>
    unfold run
    split
    · exact Session.Ensures.log_bind (.pure (.ok _ _))
    · rw [Machine.feed_eq_enqueue _ (List.cons_ne_nil p.camera [])]
      refine (Session.ensures_call _).bind ?_
      rintro ⟨m₁, result⟩ blameless
      cases result with
      | error cause => exact .pure (DeviceError.blameless_machine blameless)
      | ok output =>
        dsimp only
        split
        · exact .pure (.error (by simp))
        · have obeyed := blameless_obeyAll { p with machine := m₁ } output
          split
          · next p₁ e refused =>
            rw [refused] at obeyed
            exact .pure obeyed
          · exact ih _

end Painter

namespace Cabinet

theorem blameless_drawAll (c : Cabinet) (output : List Word) :
    Blameless DeviceError.machine (c.drawAll output).2 := by
  fun_induction drawAll c output with
  | case1 c x y id rest position here ih => exact ih
  | case2 c x y id rest position elsewhere unknown => exact .error (by simp)
  | case3 c x y id rest position elsewhere tile known ih => exact ih
  | case4 => exact .ok _ _

theorem blameless_drawBatch (c : Cabinet) (output : List Word) :
    Blameless DeviceError.machine (c.drawBatch output).2 := by
  unfold drawBatch
  split
  · exact .error (by simp)
  · exact c.blameless_drawAll output

theorem blameless_deflection (c : Cabinet) (scan : Scan) (round : Nat) (joystick : Joystick) :
    Blameless DeviceError.machine (c.deflection scan round joystick) := by
  cases joystick with
  | neutral => exact .ok _ _
  | track =>
    simp only [deflection]
    split
    · exact .error (by simp)
    · split
      · exact .error (by simp)
      · exact .ok _ _

theorem ensures_runFrom (scan : Scan) (joystick : Joystick) (fuel round : Nat) (c : Cabinet) :
    (runFrom scan joystick fuel round c).Ensures
      (BlamelessWith DeviceError.machine) := by
  induction fuel generalizing round c with
  | zero => exact .exhausted _
  | succ fuel ih =>
    unfold runFrom
    refine (Session.ensures_call c.machine).bind ?_
    rintro ⟨m₁, result⟩ blameless
    cases result with
    | error cause => exact .pure (DeviceError.blameless_machine blameless)
    | ok output =>
      have drawn := blameless_drawBatch { c with machine := m₁ } output
      dsimp only
      split
      · next c₁ e refused =>
        rw [refused] at drawn
        exact .pure (.of_error drawn)
      · next c₁ _ =>
        split
        · exact Session.Ensures.log_bind (.pure (Blameless.ok _ _))
        · have looked := c₁.blameless_deflection scan round joystick
          split
          · next e missing =>
            rw [missing] at looked
            exact .pure (.of_error looked)
          · next w _ =>
            rw [Machine.feed_eq_enqueue _ (List.cons_ne_nil w [])]
            exact ih _ _

end Cabinet

namespace Droid

theorem ensures_tryMove (m : Machine) (d : Direction) :
    (tryMove m d).Ensures (Blameless DeviceError.machine) := by
  unfold tryMove
  rw [m.feed_eq_enqueue (List.cons_ne_nil d.toWord [])]
  refine (Session.ensures_call _).bind ?_
  rintro ⟨m₁, result⟩ blameless
  dsimp only
  split
  · exact .pure (DeviceError.blameless_machine blameless)
  · split
    · exact .pure (.error (by simp))
    · exact .pure (.ok _ _)
  · exact .pure (.error (by simp))

theorem ensures_lookAround (position : Position) (m : Machine) (directions : List Direction)
    (plan : FloorPlan) (queue : List (Position × Machine)) :
    (lookAround position m directions plan queue).Ensures (Blameless DeviceError.machine) := by
  induction directions generalizing plan queue with
  | nil => exact .pure (.ok _ _)
  | cons d rest ih =>
    unfold lookAround
    dsimp only
    split
    · exact ih plan queue
    · refine (ensures_tryMove m d).bind ?_
      rintro (e | ⟨_ | _ | _, there⟩) blameless
      · exact .pure (.of_error blameless)
      · exact ih _ _
      · exact ih _ _
      · exact Session.Ensures.log_bind (ih _ _)

theorem ensures_surveyFrom (fuel : Nat) (plan : FloorPlan) (queue : List (Position × Machine)) :
    (surveyFrom fuel plan queue).Ensures (Blameless DeviceError.machine) := by
  induction fuel generalizing plan queue with
  | zero => exact .exhausted _
  | succ fuel ih =>
    cases queue with
    | nil => exact Session.Ensures.log_bind (.pure (Blameless.ok _ _))
    | cons cell queue =>
      refine (ensures_lookAround cell.1 cell.2 Direction.all plan queue).bind ?_
      rintro (e | ⟨plan₁, queue₁⟩) blameless
      · exact .pure (.of_error blameless)
      · exact ih plan₁ queue₁

end Droid

/-- Nobody but the caller who passes an empty batch is told that input broke its contract. -/
theorem input_violation_from_caller_only :
    (∀ (m m₁ : Machine) violation, ¬m.Calls ⟨m₁, .error (.input violation)⟩) ∧
    (∀ (p : Pipeline) batch,
      (∃ p₁ violation, (p.pass batch).Ends (p₁, .error (.machine (.input violation)))) ↔
        batch = []) ∧
    (∀ (p p₁ : Pipeline) signal violation,
      ¬(p.amplify signal).Ends (p₁, .error (.machine (.input violation)))) ∧
    (∀ fuel (p p₁ : Pipeline) signal violation,
      ¬(p.feedback fuel signal).Ends (p₁, .error (.machine (.input violation)))) ∧
    (∀ fuel feedback program phases violation,
      ¬(Phases.best fuel feedback program phases).Ends (.error (.machine (.input violation)))) ∧
    (∀ fuel (p q : Painter) violation,
      ¬(p.run fuel).Ends (q, .error (.machine (.input violation)))) ∧
    (∀ scan joystick fuel round (c q : Cabinet) violation,
      ¬(c.runFrom scan joystick fuel round).Ends (q, .error (.machine (.input violation)))) ∧
    ∀ fuel m violation, ¬(Droid.survey fuel m).Ends (.error (.machine (.input violation))) := by
  refine ⟨?_, ?_, ?_, ?_, ?_, ?_, ?_, ?_⟩
  · intro m m₁ violation calls
    exact calls.blameless violation rfl
  · intro p batch
    constructor
    · rintro ⟨p₁, violation, ends⟩
      by_contra filled
      exact (p.ensures_pass filled).of_ends ends violation rfl
    · rintro rfl
      exact ⟨p, .emptyBatch, 0, rfl⟩
  · intro p p₁ signal violation ends
    exact (p.ensures_amplify signal).of_ends ends violation rfl
  · intro fuel p p₁ signal violation ends
    exact (Pipeline.ensures_feedbackFrom fuel 0 p (List.cons_ne_nil signal [])).of_ends ends
      violation rfl
  · intro fuel feedback program phases violation ends
    exact (Phases.ensures_best fuel feedback program phases).of_ends ends violation rfl
  · intro fuel p q violation ends
    exact (Painter.ensures_run fuel p).of_ends ends violation rfl
  · intro scan joystick fuel round c q violation ends
    exact (Cabinet.ensures_runFrom scan joystick fuel round c).of_ends ends violation rfl
  · intro fuel m violation ends
    exact (Droid.ensures_surveyFrom fuel _ _).of_ends ends violation rfl

end WordMachine
