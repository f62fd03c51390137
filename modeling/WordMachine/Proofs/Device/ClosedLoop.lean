import WordMachine.Proofs.Machine.Blocking

/-!
Closed loops. A device can show its machine something at each input instruction and take each word
as it comes, or else feed the machine ahead of a call and take the words of the call afterwards.
Both come to the same, since a call never gets past an input instruction that finds nothing queued.
-/

namespace WordMachine

structure Rig (σ : Type) where
  look? : σ → Option Word
  take? : σ → Word → Option σ
  rests : σ → Prop
  rests_of_look {s : σ} {w : Word} : look? s = some w → rests s

namespace Rig

def advance? (rig : Rig σ) (m : Machine) (s : σ) : Option (Machine × σ) :=
  if m.isAt .input then
    match rig.look? s with
    | none => none
    | some w =>
      match Machine.step { m with inbox := ⟨[w]⟩ } with
      | .next m _ => some (m, s)
      | _ => none
  else
    match m.step with
    | .next m none => some (m, s)
    | .next m (some w) => (rig.take? s w).map (m, ·)
    | _ => none

inductive Finishes (rig : Rig σ) : Machine → σ → Machine → σ → Prop
  | halt {m m₁ : Machine} {s : σ} : m.step = .halted m₁ → rig.rests s → Finishes rig m s m₁ s
  | advance {m m₁ m₂ : Machine} {s s₁ s₂ : σ} :
    rig.advance? m s = some (m₁, s₁) → Finishes rig m₁ s₁ m₂ s₂ →
    Finishes rig m s m₂ s₂

inductive Reaches (rig : Rig σ) : Machine → σ → Machine → σ → Prop
  | start {m : Machine} {s : σ} : Reaches rig m s m s
  | advance {m m₁ m₂ : Machine} {s s₁ s₂ : σ} :
    rig.advance? m s = some (m₁, s₁) → Reaches rig m₁ s₁ m₂ s₂ → Reaches rig m s m₂ s₂

def Meets (rig : Rig σ) (m : Machine) (s : σ) (m₁ : Machine) (s₁ : σ) : Prop :=
  m.state ≠ .halted ∧ rig.Reaches { m with state := .active } s m₁ s₁

def passes (rig : Rig σ) (test : Machine → σ → Bool) : Nat → Machine → σ → Bool
  | 0, _, _ => false
  | fuel + 1, m, s =>
    test m s &&
      match rig.advance? m s with
      | none => true
      | some (m, s) => rig.passes test fuel m s

inductive Completes (rig : Rig σ) (m : Machine) (s : σ) : Machine → σ → Prop
  | halted : m.state = .halted → rig.rests s → Completes rig m s m s
  | ran : m.state ≠ .halted → rig.Finishes { m with state := .active } s m₁ s₁ →
    Completes rig m s m₁ s₁

inductive Rounds (rig : Rig σ) : Machine → σ → Machine → σ → Prop
  | halted {m : Machine} {s : σ} : m.state = .halted → rig.rests s → Rounds rig m s m s
  | round {m m₁ m₂ : Machine} {s s₁ s₂ : σ} {w : Word} {output : List Word} :
    m.state ≠ .halted → rig.look? s = some w →
    (m.enqueue [w]).Calls ⟨m₁, .ok output⟩ → output.foldlM rig.take? s = some s₁ →
    Rounds rig m₁ s₁ m₂ s₂ → Rounds rig m s m₂ s₂

variable {rig : Rig σ} {m : Machine}

theorem Rounds.rests (h : rig.Rounds m s m₁ s₁) : rig.rests s := by
  cases h with
  | halted _ rests => exact rests
  | round _ look => exact rig.rests_of_look look

theorem Rounds.rests_last (h : rig.Rounds m s m₁ s₁) : rig.rests s₁ := by
  induction h with
  | halted _ rests => exact rests
  | round _ _ _ _ _ ih => exact ih

theorem advance?_of_step_halted (step : m.step = .halted m₁) : rig.advance? m s = none := by
  have elsewhere : m.isAt .input = false :=
    Machine.isAt_of_ne (Machine.isAt_of_step_halted step) (by simp)
  simp [advance?, elsewhere, step]

theorem Finishes.unique (h : rig.Finishes m s m₁ s₁) (h₁ : rig.Finishes m s m₂ s₂) :
    m₁ = m₂ ∧ s₁ = s₂ := by
  induction h with
  | halt step rests =>
    cases h₁ with
    | halt step₁ =>
      rw [step] at step₁
      cases step₁
      exact ⟨rfl, rfl⟩
    | advance advance => simp [advance?_of_step_halted step] at advance
  | advance advance _ ih =>
    cases h₁ with
    | halt step => simp [advance?_of_step_halted step] at advance
    | advance advance₁ finishes =>
      rw [advance] at advance₁
      cases advance₁
      exact ih finishes

theorem Completes.unique (h : rig.Completes m s m₁ s₁) (h₁ : rig.Completes m s m₂ s₂) :
    m₁ = m₂ ∧ s₁ = s₂ := by
  cases h with
  | halted halted rests =>
    cases h₁ with
    | halted => exact ⟨rfl, rfl⟩
    | ran active => exact absurd halted active
  | ran active finishes =>
    cases h₁ with
    | halted halted => exact absurd halted active
    | ran _ finishes₁ => exact finishes.unique finishes₁

theorem advance?_eq_some_iff (empty : m.inbox.waiting = []) :
    rig.advance? m s = some (m₁, s₁) ↔
      (∃ emitted, m.step = .next m₁ emitted ∧ emitted.toList.foldlM rig.take? s = some s₁) ∨
        ∃ w m₀, m.step = .waiting m₀ ∧ rig.look? s = some w ∧
          (m.enqueue [w]).step = .next m₁ none ∧ s₁ = s := by
  have fed (w : Word) : { m with inbox := ⟨[w]⟩ } = m.enqueue [w] := by
    simp [Machine.enqueue, empty]
  cases step : m.step with
  | next m₂ emitted =>
    have elsewhere := (Machine.isAt_of_step_next step empty).1
    have advance : rig.advance? m s = (emitted.toList.foldlM rig.take? s).map (m₂, ·) := by
      cases emitted <;> simp [advance?, elsewhere, step]
    rw [advance]
    constructor
    · intro h
      obtain ⟨s₂, taken, ⟨⟩⟩ := Option.map_eq_some_iff.1 h
      exact .inl ⟨emitted, rfl, taken⟩
    · rintro (⟨emitted₁, ⟨⟩, taken⟩ | ⟨w, m₀, ⟨⟩, -⟩)
      exact Option.map_eq_some_iff.2 ⟨s₁, taken, rfl⟩
  | waiting m₀ =>
    have atInput := (Machine.isAt_of_step_waiting step).1
    cases look : rig.look? s with
    | none => simp [advance?, atInput, look]
    | some w =>
      rcases Machine.step_enqueue_of_waiting step w with ⟨m₂, next, -⟩ | ⟨cause, m₂, fault⟩
      · simp [advance?, atInput, look, fed, next, eq_comm]
      · simp [advance?, atInput, look, fed, fault]
  | halted m₀ => simp [advance?_of_step_halted step]
  | fault cause m₀ =>
    have fault (w : Word) := Machine.step_enqueue m [w] (by simp [step])
    simp only [step, Step.map] at fault
    cases atInput : m.isAt .input with
    | false => simp [advance?, atInput, step]
    | true => cases look : rig.look? s <;> simp [advance?, atInput, look, fed, fault]

theorem state_of_advance? (h : rig.advance? m s = some (m₁, s₁)) (empty : m.inbox.waiting = []) :
    m₁.state = m.state := by
  rcases (advance?_eq_some_iff empty).1 h with ⟨emitted, step, -⟩ | ⟨w, m₀, -, -, next, -⟩
  · exact Machine.state_of_step_next step
  · rw [Machine.state_of_step_next next, Machine.state_enqueue]

theorem inbox_of_advance? (h : rig.advance? m s = some (m₁, s₁)) (empty : m.inbox.waiting = []) :
    m₁.inbox.waiting = [] := by
  rcases (advance?_eq_some_iff empty).1 h with ⟨emitted, step, -⟩ | ⟨w, m₀, step, -, next, -⟩
  · exact (Machine.isAt_of_step_next step empty).2
  · rcases Machine.step_enqueue_of_waiting step w with ⟨m₂, next₁, empty₁⟩ | ⟨cause, m₂, fault⟩
    · rw [next] at next₁
      cases next₁
      exact empty₁
    · simp [next] at fault

theorem Finishes.inbox_eq_nil (h : rig.Finishes m s m₁ s₁) (empty : m.inbox.waiting = []) :
    m₁.inbox.waiting = [] := by
  induction h with
  | halt step =>
    rw [Machine.eq_of_step_halted step]
    exact empty
  | advance advance _ ih => exact ih (inbox_of_advance? advance empty)

theorem Completes.inbox_eq_nil (h : rig.Completes m s m₁ s₁) (empty : m.inbox.waiting = []) :
    m₁.inbox.waiting = [] := by
  cases h with
  | halted => exact empty
  | ran _ finishes => exact finishes.inbox_eq_nil empty

theorem Reaches.trans (h : rig.Reaches m s m₁ s₁) (h₁ : rig.Reaches m₁ s₁ m₂ s₂) :
    rig.Reaches m s m₂ s₂ := by
  induction h with
  | start => exact h₁
  | advance advance _ ih => exact .advance advance (ih h₁)

theorem Reaches.of_passes (h : rig.Reaches m s m₁ s₁) (pass : rig.passes test fuel m s) :
    test m₁ s₁ := by
  induction fuel generalizing m s with
  | zero => cases pass
  | succ fuel ih =>
    simp only [passes, Bool.and_eq_true] at pass
    obtain ⟨now, later⟩ := pass
    cases h with
    | start => exact now
    | advance advance reaches =>
      rw [advance] at later
      exact ih reaches later

theorem Reaches.finishes (h : rig.Reaches m s m₁ s₁) (h₁ : rig.Finishes m₁ s₁ m₂ s₂) :
    rig.Finishes m s m₂ s₂ := by
  induction h with
  | start => exact h₁
  | advance advance _ ih => exact .advance advance (ih h₁)

theorem reaches_of_runs (runs : m.Runs r) (active : m.state = .active)
    (empty : m.inbox.waiting = []) (ok : r.result = .ok output)
    (taken : output.foldlM rig.take? s = some s₁) :
    ∃ m₁, rig.Reaches m s m₁ s₁ ∧
      (m₁.step = .halted r.machine ∨
        r.machine.state ≠ .halted ∧ m₁ = { r.machine with state := .active }) := by
  induction runs generalizing s output with
  | @waiting m m₁ step =>
    cases ok
    cases taken
    obtain rfl := Machine.eq_of_step_waiting step
    cases m
    cases active
    exact ⟨_, .start, .inr ⟨by simp, rfl⟩⟩
  | @halted m m₁ step =>
    cases ok
    cases taken
    exact ⟨m, .start, .inl step⟩
  | fault => simp at ok
  | @next m m₁ emitted r step _ ih =>
    obtain ⟨rest₁, ok₁, rfl⟩ := Reply.result_after_eq_ok_iff.1 ok
    rw [List.foldlM_append] at taken
    obtain ⟨s', first, taken₁⟩ := Option.bind_eq_some_iff.1 taken
    have advance : rig.advance? m s = some (m₁, s') :=
      (advance?_eq_some_iff empty).2 (.inl ⟨emitted, step, first⟩)
    have active₁ : m₁.state = .active := by
      rw [state_of_advance? advance empty, active]
    obtain ⟨m₂, reaches, last⟩ := ih active₁ (inbox_of_advance? advance empty) ok₁ taken₁
    exact ⟨m₂, .advance advance reaches, last⟩

theorem finishes_of_runs (runs : m.Runs r) (active : m.state = .active)
    (empty : m.inbox.waiting = []) (ok : r.result = .ok output)
    (taken : output.foldlM rig.take? s = some s₁) (rest : rig.Completes r.machine s₁ m₂ s₂) :
    rig.Finishes m s m₂ s₂ := by
  obtain ⟨m₁, reaches, step | ⟨running, rfl⟩⟩ := reaches_of_runs runs active empty ok taken
  · cases rest with
    | halted _ rests => exact reaches.finishes (.halt step rests)
    | ran running => exact absurd (Machine.state_of_step_halted step) running
  · cases rest with
    | halted halted => exact absurd halted running
    | ran _ finishes => exact reaches.finishes finishes

theorem reaches_of_meets (runs : m.Runs r) (active : m.state = .active)
    (empty : m.inbox.waiting = []) (ok : r.result = .ok output)
    (taken : output.foldlM rig.take? s = some s₁) (rest : rig.Meets r.machine s₁ m₂ s₂) :
    rig.Reaches m s m₂ s₂ := by
  obtain ⟨running, reaches₁⟩ := rest
  obtain ⟨m₁, reaches, step | ⟨-, rfl⟩⟩ := reaches_of_runs runs active empty ok taken
  · exact absurd (Machine.state_of_step_halted step) running
  · exact reaches.trans reaches₁

theorem Finishes.rounds (h : rig.Finishes m s m₂ s₂) (active : m.state = .active)
    (empty : m.inbox.waiting = []) :
    ∃ m₁ output s₁, m.Runs ⟨m₁, .ok output⟩ ∧ output.foldlM rig.take? s = some s₁ ∧
      rig.Rounds m₁ s₁ m₂ s₂ := by
  induction h with
  | @halt m m₁ s step rests =>
    exact ⟨m₁, [], s, .halted step, rfl, .halted (Machine.state_of_step_halted step) rests⟩
  | @advance m m₁ m₂ s s₁ s₂ advance _ ih =>
    have active₁ : m₁.state = .active := by
      rw [state_of_advance? advance empty, active]
    obtain ⟨m₃, output, s₃, runs, taken₁, rounds⟩ := ih active₁ (inbox_of_advance? advance empty)
    rcases (advance?_eq_some_iff empty).1 advance with
      ⟨emitted, step, taken⟩ | ⟨w, m₀, step, look, next, rfl⟩
    · refine ⟨m₃, emitted.toList ++ output, s₃, .next step runs, ?_, rounds⟩
      rw [List.foldlM_append, taken]
      exact taken₁
    · -- The call ends here, and the next round goes on with the input instruction.
      refine ⟨m₀, [], s₁, .waiting step, rfl, ?_⟩
      obtain rfl := Machine.eq_of_step_waiting step
      have calls : (({ m with state := .waiting } : Machine).enqueue [w]).Calls
          ⟨m₃, .ok output⟩ := by
        rw [Machine.calls_iff_runs (by simp)]
        cases m
        cases active
        exact .next next runs
      exact .round (by simp) look calls taken₁ rounds

theorem exists_advance_of_round
    (waiting : Machine.step { m with state := .active } = .waiting m) (look : rig.look? s = some w)
    (calls : (m.enqueue [w]).Calls ⟨m₁, .ok output⟩) :
    ∃ m₂, rig.advance? { m with state := .active } s = some (m₂, s) ∧ m₂.state = .active ∧
      m₂.inbox.waiting = [] ∧ m₂.Runs ⟨m₁, .ok output⟩ := by
  have empty := (Machine.isAt_of_step_waiting waiting).2
  have running : (m.enqueue [w]).state ≠ .halted := by
    simp [Machine.state_of_step_waiting waiting]
  have runs := (Machine.calls_iff_runs running).1 calls
  rcases Machine.step_enqueue_of_waiting waiting w with ⟨m₂, next, empty₂⟩ | ⟨cause, m₂, fault⟩
  · obtain ⟨r, runs₂, eq⟩ := (Machine.runs_iff_of_next next).1 runs
    simp only [Option.toList_none, Reply.after_nil] at eq
    subst eq
    exact ⟨m₂, (advance?_eq_some_iff empty).2 (.inr ⟨w, m, waiting, look, next, rfl⟩),
      Machine.state_of_step_next next, empty₂, runs₂⟩
  · cases calls.unique ((Machine.calls_iff_runs running).2 (.fault fault))

theorem Rounds.completes (h : rig.Rounds m s m₂ s₂)
    (stopped : m.state = .halted ∨ Machine.step { m with state := .active } = .waiting m) :
    rig.Completes m s m₂ s₂ := by
  induction h with
  | halted halted rests => exact .halted halted rests
  | round running look calls taken _ ih =>
    obtain ⟨m₃, advance, active, empty, runs⟩ :=
      exists_advance_of_round (stopped.resolve_left running) look calls
    have rest := ih calls.halted_or_waiting
    exact .ran running (.advance advance (finishes_of_runs runs active empty rfl taken rest))

theorem completes_iff_rounds (empty : m.inbox.waiting = []) :
    rig.Completes m s m₂ s₂ ↔
      ∃ m₁ output s₁, m.Calls ⟨m₁, .ok output⟩ ∧ output.foldlM rig.take? s = some s₁ ∧
        rig.Rounds m₁ s₁ m₂ s₂ := by
  constructor
  · intro h
    cases h with
    | halted halted rests =>
      exact ⟨m, [], s, (Machine.calls_iff_of_halted halted).2 rfl, rfl, .halted halted rests⟩
    | ran running finishes =>
      obtain ⟨m₁, output, s₁, runs, taken, rounds⟩ := finishes.rounds rfl empty
      exact ⟨m₁, output, s₁, (Machine.calls_iff_runs running).2 runs, taken, rounds⟩
  · rintro ⟨m₁, output, s₁, calls, taken, rounds⟩
    have rest := rounds.completes calls.halted_or_waiting
    by_cases halted : m.state = .halted
    · cases (Machine.calls_iff_of_halted halted).1 calls
      cases taken
      exact rest
    · have runs := (Machine.calls_iff_runs halted).1 calls
      exact .ran halted (finishes_of_runs runs rfl empty rfl taken rest)

theorem Meets.of_calls (h : rig.Meets m₁ s₁ m₂ s₂) (empty : m.inbox.waiting = [])
    (calls : m.Calls ⟨m₁, .ok output⟩) (taken : output.foldlM rig.take? s = some s₁) :
    rig.Meets m s m₂ s₂ := by
  by_cases halted : m.state = .halted
  · cases (Machine.calls_iff_of_halted halted).1 calls
    cases taken
    exact h
  · have runs := (Machine.calls_iff_runs halted).1 calls
    exact ⟨halted, reaches_of_meets runs rfl empty rfl taken h⟩

theorem Meets.of_round (h : rig.Meets m₁ s₁ m₂ s₂)
    (waiting : Machine.step { m with state := .active } = .waiting m) (look : rig.look? s = some w)
    (calls : (m.enqueue [w]).Calls ⟨m₁, .ok output⟩)
    (taken : output.foldlM rig.take? s = some s₁) : rig.Meets m s m₂ s₂ := by
  obtain ⟨m₃, advance, active, empty, runs⟩ := exists_advance_of_round waiting look calls
  have running : m.state ≠ .halted := by
    simp [Machine.state_of_step_waiting waiting]
  exact ⟨running, .advance advance (reaches_of_meets runs active empty rfl taken h)⟩

theorem Rounds.completes_of_asksFirst (h : rig.Rounds m s m₂ s₂) (empty : m.inbox.waiting = [])
    (asks : m.AsksFirst) :
    ∃ m₁, rig.Completes m s m₁ s₂ ∧ m₁.memory = m₂.memory := by
  cases h with
  | halted halted rests => exact ⟨m, .halted halted rests, rfl⟩
  | @round _ m₁ _ _ s₁ _ w output running look calls taken rounds =>
    obtain ⟨⟨m₀, result⟩, calls₀⟩ := calls.of_enqueue
    cases result with
    | error cause => cases calls.unique (calls₀.enqueue_of_error [w])
    | ok output₀ =>
      obtain rfl := asks.output_eq_nil empty calls₀
      obtain ⟨r₁, calls₁, eq⟩ := (calls₀.enqueue_iff [w]).1 calls
      rw [Reply.after_nil] at eq
      subst eq
      obtain ⟨m₃, rounds₀, memory⟩ : ∃ m₃, rig.Rounds m₀ s m₃ s₂ ∧ m₃.memory = m₂.memory := by
        by_cases halted : m₀.state = .halted
        · rw [Machine.calls_iff_of_halted (by simpa using halted)] at calls₁
          cases calls₁
          cases taken
          cases rounds with
          | halted _ rests => exact ⟨m₀, .halted halted rests, rfl⟩
          | round running₁ => exact absurd halted running₁
        · exact ⟨m₂, .round halted look calls₁ taken rounds, rfl⟩
      exact ⟨m₃, (completes_iff_rounds empty).2 ⟨m₀, [], s, calls₀, rfl, rounds₀⟩, memory⟩

theorem Completes.rounds_of_asksFirst (h : rig.Completes m s m₁ s₁)
    (empty : m.inbox.waiting = []) (asks : m.AsksFirst) (look : rig.look? s = some w) :
    ∃ m₂, rig.Rounds m s m₂ s₁ ∧ m₂.memory = m₁.memory := by
  cases h with
  | halted halted rests => exact ⟨m, .halted halted rests, rfl⟩
  | ran running finishes =>
    obtain ⟨m₀, output, s₀, runs, taken, rounds⟩ := finishes.rounds rfl empty
    have calls : m.Calls ⟨m₀, .ok output⟩ := (Machine.calls_iff_runs running).2 runs
    obtain rfl := asks.output_eq_nil empty calls
    cases taken
    cases rounds with
    | halted halted rests =>
      -- The word that was fed is left over.
      have halted₁ : (m₁.enqueue [w]).state = .halted := halted
      have calls₁ := (calls.enqueue_iff [w]).2 ⟨_, (Machine.calls_iff_of_halted halted₁).2 rfl, rfl⟩
      exact ⟨m₁.enqueue [w], .round running look calls₁ rfl (.halted halted rests), rfl⟩
    | round running₀ look₀ calls₀ taken₀ rounds₀ =>
      have calls₁ := (calls.enqueue_iff _).2 ⟨_, calls₀, rfl⟩
      exact ⟨m₁, .round running look₀ calls₁ taken₀ rounds₀, rfl⟩

end Rig

end WordMachine
