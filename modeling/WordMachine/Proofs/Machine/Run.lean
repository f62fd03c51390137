import WordMachine.Machine.Basic

namespace WordMachine

namespace Reply

def after (output : List Word) (r : Reply) : Reply := ⟨r.machine, r.result.map (output ++ ·)⟩

@[simp] theorem after_ok (output : List Word) (m : Machine) (rest : List Word) :
    (⟨m, .ok rest⟩ : Reply).after output = ⟨m, .ok (output ++ rest)⟩ := rfl

@[simp] theorem after_error (output : List Word) (m : Machine) (cause : Fault) :
    (⟨m, .error cause⟩ : Reply).after output = ⟨m, .error cause⟩ := rfl

@[simp] theorem after_nil (r : Reply) : r.after [] = r := by
  cases r with
  | mk m result => cases result <;> simp

@[simp] theorem after_after (first second : List Word) (r : Reply) :
    (r.after second).after first = r.after (first ++ second) := by
  cases r with
  | mk m result => cases result <;> simp

theorem result_after_eq_error_iff {r : Reply} :
    (r.after output).result = .error cause ↔ r.result = .error cause := by
  cases r with
  | mk m result => cases result <;> simp

theorem result_after_eq_ok_iff {r : Reply} :
    (r.after first).result = .ok output ↔ ∃ rest, r.result = .ok rest ∧ first ++ rest = output := by
  cases r with
  | mk m result => cases result <;> simp

end Reply

namespace Machine

theorem step_eq_apply {m : Machine} (fetch : m.fetch = .ok i) (effect : m.effect i = .ok e) :
    m.step = m.apply i.width e := by
  simp [step, fetch, effect]

theorem apply_cases (m : Machine) (width : Nat) (effect : Effect) :
    (∃ m₁ emitted, m.apply width effect = .next m₁ emitted ∧ m₁.state = m.state) ∨
      m.apply width effect = .waiting { m with state := .waiting } ∨
      m.apply width effect = .halted { m with state := .halted } ∨
      ∃ cause m₁, m.apply width effect = .fault cause m₁ ∧ m₁.state = m.state := by
  cases effect with
  | store address value =>
    simp only [apply]
    cases Word.index? address with
    | none => exact .inr (.inr (.inr ⟨_, _, rfl, rfl⟩))
    | some cell => exact .inl ⟨_, _, rfl, rfl⟩
  | receive address =>
    simp only [apply]
    cases m.inbox.pop? with
    | none => exact .inr (.inl rfl)
    | some popped =>
      cases Word.index? address with
      | none => exact .inr (.inr (.inr ⟨_, _, rfl, rfl⟩))
      | some cell => exact .inl ⟨_, _, rfl, rfl⟩
  | emit value => exact .inl ⟨_, _, rfl, rfl⟩
  | rebase base => exact .inl ⟨_, _, rfl, rfl⟩
  | jump target => exact .inl ⟨_, _, rfl, rfl⟩
  | proceed => exact .inl ⟨_, _, rfl, rfl⟩
  | halt => exact .inr (.inr (.inl rfl))

theorem step_cases (m : Machine) :
    (∃ m₁ emitted, m.step = .next m₁ emitted ∧ m₁.state = m.state) ∨
      m.step = .waiting { m with state := .waiting } ∨
      m.step = .halted { m with state := .halted } ∨
      ∃ cause m₁, m.step = .fault cause m₁ ∧ m₁.state = m.state := by
  cases fetch : m.fetch with
  | error cause => exact .inr (.inr (.inr ⟨cause, m, by simp [step, fetch], rfl⟩))
  | ok i =>
    cases effect : m.effect i with
    | error cause => exact .inr (.inr (.inr ⟨cause, m, by simp [step, fetch, effect], rfl⟩))
    | ok e =>
      rw [step_eq_apply fetch effect]
      exact m.apply_cases i.width e

theorem state_of_step_next {m m₁ : Machine} (h : m.step = .next m₁ emitted) :
    m₁.state = m.state := by
  rcases m.step_cases with ⟨m₂, out, step, state⟩ | step | step | ⟨cause, m₂, step, -⟩
  · rw [h] at step
    cases step
    exact state
  · simp [h] at step
  · simp [h] at step
  · simp [h] at step

theorem eq_of_step_waiting {m m₁ : Machine} (h : m.step = .waiting m₁) :
    m₁ = { m with state := .waiting } := by
  rcases m.step_cases with ⟨m₂, out, step, -⟩ | step | step | ⟨cause, m₂, step, -⟩
  · simp [h] at step
  · simpa [h] using step
  · simp [h] at step
  · simp [h] at step

theorem eq_of_step_halted {m m₁ : Machine} (h : m.step = .halted m₁) :
    m₁ = { m with state := .halted } := by
  rcases m.step_cases with ⟨m₂, out, step, -⟩ | step | step | ⟨cause, m₂, step, -⟩
  · simp [h] at step
  · simp [h] at step
  · simpa [h] using step
  · simp [h] at step

theorem state_of_step_waiting {m m₁ : Machine} (h : m.step = .waiting m₁) :
    m₁.state = .waiting := by
  rw [eq_of_step_waiting h]

theorem state_of_step_halted {m m₁ : Machine} (h : m.step = .halted m₁) : m₁.state = .halted := by
  rw [eq_of_step_halted h]

inductive Runs : Machine → Reply → Prop
  | waiting {m m₁ : Machine} : m.step = .waiting m₁ → Runs m ⟨m₁, .ok []⟩
  | halted {m m₁ : Machine} : m.step = .halted m₁ → Runs m ⟨m₁, .ok []⟩
  | fault {m m₁ : Machine} {cause : Fault} :
    m.step = .fault cause m₁ → Runs m ⟨m₁, .error cause⟩
  | next {m m₁ : Machine} {emitted : Option Word} {r : Reply} :
    m.step = .next m₁ emitted → Runs m₁ r → Runs m (r.after emitted.toList)

theorem runs_iff_of_halted {m : Machine} (step : m.step = .halted m₁) :
    m.Runs r ↔ r = ⟨m₁, .ok []⟩ := by
  constructor
  · intro h
    cases h <;> simp_all
  · rintro rfl
    exact .halted step

theorem runs_iff_of_next {m : Machine} (step : m.step = .next m₁ emitted) :
    m.Runs r ↔ ∃ r₁, m₁.Runs r₁ ∧ r = r₁.after emitted.toList := by
  constructor
  · intro h
    cases h with
    | next step₁ runs =>
      rw [step] at step₁
      cases step₁
      exact ⟨_, runs, rfl⟩
    | waiting step₁ => simp [step] at step₁
    | halted step₁ => simp [step] at step₁
    | fault step₁ => simp [step] at step₁
  · rintro ⟨r₁, runs, rfl⟩
    exact .next step runs

theorem runs_or_next (m : Machine) :
    (∃ r, m.Runs r) ∨ ∃ m₁ emitted, m.step = .next m₁ emitted := by
  rcases m.step_cases with ⟨m₁, emitted, step, -⟩ | step | step | ⟨cause, m₁, step, -⟩
  · exact .inr ⟨m₁, emitted, step⟩
  · exact .inl ⟨_, .waiting step⟩
  · exact .inl ⟨_, .halted step⟩
  · exact .inl ⟨_, .fault step⟩

def Calls (m : Machine) (r : Reply) : Prop := ∃ fuel, m.call fuel = some r

theorem run_of_le {m : Machine} (h : run fuel m emitted = some r) (le : fuel ≤ more) :
    run more m emitted = some r := by
  induction fuel generalizing m emitted more with
  | zero => simp [run] at h
  | succ fuel ih =>
    obtain ⟨more, rfl⟩ : ∃ n, more = n + 1 := ⟨more - 1, by omega⟩
    have le : fuel ≤ more := by omega
    rw [run] at h ⊢
    cases step : m.step with
    | next m₁ out =>
      cases out with
      | none =>
        rw [step] at h
        exact ih h le
      | some w =>
        rw [step] at h
        exact ih h le
    | waiting m₁ => simpa [step] using h
    | halted m₁ => simpa [step] using h
    | fault cause m₁ => simpa [step] using h

theorem call_of_le {m : Machine} (h : m.call fuel = some r) (le : fuel ≤ more) :
    m.call more = some r := by
  unfold call at h ⊢
  split
  · next halted => simpa [halted] using h
  · next halted =>
    rw [if_neg halted] at h
    exact run_of_le h le

theorem runs_of_run {m : Machine} (h : run fuel m emitted = some r) :
    ∃ r₁, m.Runs r₁ ∧ r = r₁.after emitted.reverse := by
  induction fuel generalizing m emitted with
  | zero => simp [run] at h
  | succ fuel ih =>
    rw [run] at h
    cases step : m.step with
    | next m₁ out =>
      cases out with
      | none =>
        rw [step] at h
        obtain ⟨r₁, runs, rfl⟩ := ih h
        exact ⟨_, .next step runs, by simp⟩
      | some w =>
        rw [step] at h
        obtain ⟨r₁, runs, rfl⟩ := ih h
        exact ⟨_, .next step runs, by simp⟩
    | waiting m₁ =>
      rw [step] at h
      obtain rfl := Option.some.inj h
      exact ⟨_, .waiting step, by simp⟩
    | halted m₁ =>
      rw [step] at h
      obtain rfl := Option.some.inj h
      exact ⟨_, .halted step, by simp⟩
    | fault cause m₁ =>
      rw [step] at h
      obtain rfl := Option.some.inj h
      exact ⟨_, .fault step, by simp⟩

theorem Runs.exists_run {m : Machine} (h : m.Runs r) (emitted : List Word) :
    ∃ fuel, run fuel m emitted = some (r.after emitted.reverse) := by
  induction h generalizing emitted with
  | waiting step => exact ⟨1, by simp [run, step]⟩
  | halted step => exact ⟨1, by simp [run, step]⟩
  | fault step => exact ⟨1, by simp [run, step]⟩
  | @next m m₁ emitted₁ r step _ ih =>
    cases emitted₁ with
    | none =>
      obtain ⟨fuel, h⟩ := ih emitted
      exact ⟨fuel + 1, by simp [run, step, h]⟩
    | some w =>
      obtain ⟨fuel, h⟩ := ih (w :: emitted)
      exact ⟨fuel + 1, by simp [run, step, h]⟩

theorem exists_run_eq_some_iff {m : Machine} :
    (∃ fuel, run fuel m [] = some r) ↔ m.Runs r := by
  constructor
  · rintro ⟨fuel, h⟩
    obtain ⟨r₁, runs, rfl⟩ := runs_of_run h
    simpa using runs
  · intro h
    simpa using h.exists_run []

theorem calls_iff_of_halted {m : Machine} (h : m.state = .halted) :
    m.Calls r ↔ r = ⟨m, .ok []⟩ := by
  simp [Calls, call, isHalted, h, eq_comm]

theorem calls_iff_runs {m : Machine} (h : m.state ≠ .halted) :
    m.Calls r ↔ Runs { m with state := .active } r := by
  simp [Calls, call, isHalted, h, exists_run_eq_some_iff]

theorem Calls.unique {m : Machine} (h : m.Calls r) (h₁ : m.Calls r₁) : r = r₁ := by
  obtain ⟨fuel, call⟩ := h
  obtain ⟨fuel₁, call₁⟩ := h₁
  have left := call_of_le call (Nat.le_max_left fuel fuel₁)
  have right := call_of_le call₁ (Nat.le_max_right fuel fuel₁)
  rw [left] at right
  exact Option.some.inj right

end Machine

end WordMachine
