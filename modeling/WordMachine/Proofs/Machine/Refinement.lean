import WordMachine.Proofs.Machine.Run
import WordMachine.Proofs.Machine.Simulation

namespace WordMachine

def Reply.ideal? (r : Reply) : Option IdealMachine.Reply :=
  match r.result with
  | .ok output => some ⟨r.machine.ideal, .ok (output.map Int64.toInt)⟩
  | .error cause => cause.ideal?.map fun cause => ⟨r.machine.ideal, .error cause⟩

theorem Reply.ideal?_after (output : List Word) (r : Reply) :
    (r.after output).ideal? = r.ideal?.map (·.after (output.map Int64.toInt)) := by
  cases r with
  | mk m result =>
    cases result with
    | ok rest => simp [ideal?, IdealMachine.Reply.after, Except.map]
    | error cause =>
      simp only [after_error, ideal?, Option.map_map]
      rfl

theorem Reply.machine_of_ideal? {r : Reply} (h : r.ideal? = some r₁) :
    r₁.machine = r.machine.ideal := by
  cases r with
  | mk m result =>
    cases result with
    | ok output =>
      cases h
      rfl
    | error cause =>
      obtain ⟨cause₁, -, rfl⟩ := Option.map_eq_some_iff.1 h
      rfl

namespace Machine

theorem Runs.ideal {m : Machine} (h : m.Runs r) :
    (r.result = .error (.overflow r.machine.ip) ∧ m.ideal.RunsInto r.machine.ideal) ∨
      ∃ r₁, r.ideal? = some r₁ ∧ m.ideal.Runs r₁ := by
  induction h with
  | @waiting m m₁ step =>
    rcases m.exceeds_or_ideal?_step with ⟨-, step₁⟩ | ⟨-, step₁⟩
    · simp [step] at step₁
    · simp only [step, Step.ideal?, Option.some.injEq] at step₁
      exact .inr ⟨_, rfl, .waiting step₁.symm⟩
  | @halted m m₁ step =>
    rcases m.exceeds_or_ideal?_step with ⟨-, step₁⟩ | ⟨-, step₁⟩
    · simp [step] at step₁
    · simp only [step, Step.ideal?, Option.some.injEq] at step₁
      exact .inr ⟨_, rfl, .halted step₁.symm⟩
  | @fault m m₁ cause step =>
    rcases m.exceeds_or_ideal?_step with ⟨exceeds, step₁⟩ | ⟨-, step₁⟩
    · rw [step] at step₁
      cases step₁
      exact .inl ⟨rfl, .here exceeds⟩
    · simp only [step, Step.ideal?, Option.map_eq_some_iff] at step₁
      obtain ⟨cause₁, known, step₁⟩ := step₁
      exact .inr ⟨_, by simp [Reply.ideal?, known], .fault step₁.symm⟩
  | @next m m₁ emitted r step _ ih =>
    rcases m.exceeds_or_ideal?_step with ⟨-, step₁⟩ | ⟨fits, step₁⟩
    · simp [step] at step₁
    · simp only [step, Step.ideal?, Option.some.injEq] at step₁
      rcases ih with ⟨overflow, into⟩ | ⟨r₁, reply, runs⟩
      · exact .inl ⟨Reply.result_after_eq_error_iff.2 overflow, .next fits step₁.symm into⟩
      · refine .inr ⟨_, ?_, .next step₁.symm runs⟩
        rw [Reply.ideal?_after, reply]
        cases emitted <;> rfl

theorem runs_of_runsInto {m : Machine} (h : m.ideal.RunsInto s) :
    ∃ m₁, m₁.ideal = s ∧ m.Runs ⟨m₁, .error (.overflow m₁.ip)⟩ := by
  generalize from_ideal : m.ideal = s₀ at h
  induction h generalizing m with
  | here exceeds =>
    subst from_ideal
    rcases m.exceeds_or_ideal?_step with ⟨-, step⟩ | ⟨fits, -⟩
    · exact ⟨m, rfl, .fault step⟩
    · exact absurd exceeds fits
  | @next s s₁ s₂ emitted fits step _ ih =>
    subst from_ideal
    rcases m.exceeds_or_ideal?_step with ⟨exceeds, -⟩ | ⟨-, step₁⟩
    · exact absurd exceeds fits
    · rw [step] at step₁
      obtain ⟨m₁, emitted₁, step₂, rfl⟩ := Step.eq_next_of_ideal? step₁
      obtain ⟨m₂, eq, runs⟩ := ih rfl
      exact ⟨m₂, eq, .next step₂ runs⟩

theorem Calls.ideal {m : Machine} (h : m.Calls r) :
    (r.result = .error (.overflow r.machine.ip) ∧ m.ideal.CallsInto r.machine.ideal) ∨
      ∃ r₁, r.ideal? = some r₁ ∧ m.ideal.Calls r₁ := by
  by_cases halted : m.state = .halted
  · obtain rfl := (calls_iff_of_halted halted).1 h
    exact .inr ⟨_, rfl, .halted halted⟩
  · rw [calls_iff_runs halted] at h
    rcases h.ideal with ⟨overflow, into⟩ | ⟨r₁, reply, runs⟩
    · exact .inl ⟨overflow, halted, into⟩
    · exact .inr ⟨r₁, reply, .runs halted runs⟩

theorem calls_of_callsInto {m : Machine} (h : m.ideal.CallsInto s) :
    ∃ m₁, m₁.ideal = s ∧ m.Calls ⟨m₁, .error (.overflow m₁.ip)⟩ := by
  obtain ⟨running, into⟩ := h
  have running₁ : m.state ≠ .halted := running
  simp only [calls_iff_runs running₁]
  exact runs_of_runsInto into

theorem Calls.ideal_cases {m : Machine} (h : m.Calls r) :
    (r.result = .error (.overflow r.machine.ip) ∧ m.ideal.CallsInto r.machine.ideal) ∨
      ∃ r₁, r₁.machine = r.machine.ideal ∧ m.ideal.Calls r₁ ∧ ∀ s, ¬m.ideal.CallsInto s := by
  rcases h.ideal with overflow | ⟨r₁, reply, calls⟩
  · exact .inl overflow
  · refine .inr ⟨r₁, Reply.machine_of_ideal? reply, calls, ?_⟩
    intro s into
    obtain ⟨m₁, -, calls₁⟩ := calls_of_callsInto into
    cases h.unique calls₁
    simp [Reply.ideal?, Fault.ideal?] at reply

end Machine

inductive Request
  | feed (batch : List Word)
  | write (address value : Word)
  | call

/-- The machine that is left when all requests have come to an end; one that is refused leaves the
machine as it is. -/
inductive Machine.Handles : Machine → List Request → Machine → Prop
  | nil {m : Machine} : Handles m [] m
  | feed {m m₁ : Machine} {batch : List Word} {requests : List Request} :
    Handles ((m.feed batch).toOption.getD m) requests m₁ → Handles m (.feed batch :: requests) m₁
  | write {m m₁ : Machine} {address value : Word} {requests : List Request} :
    Handles ((m.write address value).toOption.getD m) requests m₁ →
      Handles m (.write address value :: requests) m₁
  | call {m m₁ : Machine} {r : Reply} {requests : List Request} :
    m.Calls r → Handles r.machine requests m₁ → Handles m (.call :: requests) m₁

/-- A call that comes upon a number out of range leaves the ideal machine where it is computed. -/
inductive IdealMachine.Handles : IdealMachine → List Request → IdealMachine → Prop
  | nil {s : IdealMachine} : Handles s [] s
  | feed {s s₁ : IdealMachine} {batch : List Word} {requests : List Request} :
    Handles (s.feed (batch.map Int64.toInt)) requests s₁ → Handles s (.feed batch :: requests) s₁
  | write {s s₁ : IdealMachine} {address value : Word} {requests : List Request} :
    Handles (s.write address.toInt value.toInt) requests s₁ →
      Handles s (.write address value :: requests) s₁
  | call {s s₁ : IdealMachine} {r : Reply} {requests : List Request} :
    s.Calls r → (∀ s₂, ¬s.CallsInto s₂) → Handles r.machine requests s₁ →
      Handles s (.call :: requests) s₁
  | exceeded {s s₁ s₂ : IdealMachine} {requests : List Request} :
    s.CallsInto s₁ → Handles s₁ requests s₂ → Handles s (.call :: requests) s₂

/-- As `Handles`, but with no call that comes upon a number out of range. -/
inductive IdealMachine.HandlesInRange : IdealMachine → List Request → IdealMachine → Prop
  | nil {s : IdealMachine} : HandlesInRange s [] s
  | feed {s s₁ : IdealMachine} {batch : List Word} {requests : List Request} :
    HandlesInRange (s.feed (batch.map Int64.toInt)) requests s₁ →
      HandlesInRange s (.feed batch :: requests) s₁
  | write {s s₁ : IdealMachine} {address value : Word} {requests : List Request} :
    HandlesInRange (s.write address.toInt value.toInt) requests s₁ →
      HandlesInRange s (.write address value :: requests) s₁
  | call {s s₁ : IdealMachine} {r : Reply} {requests : List Request} :
    s.Calls r → (∀ s₂, ¬s.CallsInto s₂) → HandlesInRange r.machine requests s₁ →
      HandlesInRange s (.call :: requests) s₁

namespace Machine

theorem ideal_ofProgram (program : List Word) :
    (ofProgram program).ideal = .ofImage (program.map Int64.toInt) := by
  have cells : (fun i => ((ofProgram program).memory.get i).toInt) =
      fun i => (program.map Int64.toInt).getD i 0 := by
    funext i
    by_cases inside : i < program.length
    · simp [ofProgram, Memory.ofList, Memory.get, inside]
    · simp [ofProgram, Memory.ofList, Memory.get, inside]
  simp only [ideal, cells]
  simp [IdealMachine.ofImage, ofProgram, Memory.ofList, Memory.imageSize]

theorem ideal_feed (m : Machine) (batch : List Word) :
    ((m.feed batch).toOption.getD m).ideal = m.ideal.feed (batch.map Int64.toInt) := by
  cases batch with
  | nil => simp [feed, Inbox.push, IdealMachine.feed, bind, Except.bind, Except.toOption]
  | cons w batch =>
    simp [feed, Inbox.push, IdealMachine.feed, bind, Except.bind, pure, Except.pure,
      Except.toOption, ideal]

theorem ideal_write (m : Machine) (address value : Word) :
    ((m.write address value).toOption.getD m).ideal =
      m.ideal.write address.toInt value.toInt := by
  unfold write Memory.write IdealMachine.write
  cases index : Word.index? address with
  | none =>
    rw [Word.index?_eq_none_iff] at index
    rw [if_pos index]
    rfl
  | some i =>
    rw [Word.index?_eq_some_iff] at index
    rw [if_neg (by omega), ← ideal_set m address value index]
    rfl

theorem Handles.ideal {m : Machine} (h : m.Handles requests m₁) :
    m.ideal.Handles requests m₁.ideal := by
  induction h with
  | nil => exact .nil
  | @feed m m₁ batch requests _ ih =>
    apply IdealMachine.Handles.feed
    rw [← ideal_feed]
    exact ih
  | @write m m₁ address value requests _ ih =>
    apply IdealMachine.Handles.write
    rw [← ideal_write]
    exact ih
  | @call m m₁ r requests calls _ ih =>
    rcases calls.ideal_cases with ⟨-, into⟩ | ⟨r₁, machine, calls₁, within⟩
    · exact .exceeded into ih
    · rw [← machine] at ih
      exact .call calls₁ within ih

def NeverOverflows (m : Machine) (requests : List Request) : Prop :=
  ∀ earlier later m₁ m₂ address, requests = earlier ++ .call :: later → m.Handles earlier m₁ →
    ¬m₁.Calls ⟨m₂, .error (.overflow address)⟩

theorem NeverOverflows.tail {m m₁ : Machine} (h : m.NeverOverflows (request :: requests))
    (step : ∀ {earlier m₂}, m₁.Handles earlier m₂ → m.Handles (request :: earlier) m₂) :
    m₁.NeverOverflows requests := by
  intro earlier later m₂ m₃ address split handles
  refine h (request :: earlier) later m₂ m₃ address ?_ (step handles)
  rw [split, List.cons_append]

/-- Without an overflow the two machines part nowhere. -/
theorem Handles.idealInRange {m : Machine} (h : m.Handles requests m₁)
    (never : m.NeverOverflows requests) : m.ideal.HandlesInRange requests m₁.ideal := by
  induction h with
  | nil => exact .nil
  | @feed m m₁ batch requests _ ih =>
    apply IdealMachine.HandlesInRange.feed
    rw [← ideal_feed]
    exact ih (never.tail .feed)
  | @write m m₁ address value requests _ ih =>
    apply IdealMachine.HandlesInRange.write
    rw [← ideal_write]
    exact ih (never.tail .write)
  | @call m m₁ r requests calls _ ih =>
    have rest := ih (never.tail (.call calls))
    rcases calls.ideal_cases with ⟨overflow, -⟩ | ⟨r₁, machine, calls₁, within⟩
    · obtain ⟨m₂, result⟩ := r
      obtain rfl : result = .error (.overflow m₂.ip) := overflow
      exact absurd calls (never [] requests m m₂ _ rfl .nil)
    · rw [← machine] at rest
      exact .call calls₁ within rest

/-- After any requests the ideal machine stands where the machine does, and a further call replies
the same for both. It replies with an overflow exactly where the ideal one comes upon a number out
of range. -/
theorem ideal_handles_of_handles {program : List Word} {requests : List Request} {m : Machine}
    (h : (ofProgram program).Handles requests m) :
    (IdealMachine.ofImage (program.map Int64.toInt)).Handles requests m.ideal ∧
      (∀ m₁ output, m.Calls ⟨m₁, .ok output⟩ →
        m.ideal.Calls ⟨m₁.ideal, .ok (output.map Int64.toInt)⟩) ∧
      (∀ m₁ cause, m.Calls ⟨m₁, .error cause⟩ → (∀ address, cause ≠ .overflow address) →
        ∃ cause₁, cause.ideal? = some cause₁ ∧ m.ideal.Calls ⟨m₁.ideal, .error cause₁⟩) ∧
      ∀ s address, (∃ m₁, m₁.ideal = s ∧ m.Calls ⟨m₁, .error (.overflow address)⟩) ↔
        m.ideal.CallsInto s ∧ s.ip = address := by
  refine ⟨?_, ?_, ?_, ?_⟩
  · rw [← ideal_ofProgram]
    exact h.ideal
  · intro m₁ output calls
    rcases calls.ideal with ⟨overflow, -⟩ | ⟨r₁, reply, calls₁⟩
    · cases overflow
    · cases reply
      exact calls₁
  · intro m₁ cause calls other
    rcases calls.ideal with ⟨overflow, -⟩ | ⟨r₁, reply, calls₁⟩
    · exact absurd (Except.error.inj overflow) (other _)
    · obtain ⟨cause₁, known, rfl⟩ := Option.map_eq_some_iff.1 reply
      exact ⟨cause₁, known, calls₁⟩
  · intro s address
    constructor
    · rintro ⟨m₁, rfl, calls⟩
      rcases calls.ideal with ⟨overflow, into⟩ | ⟨r₁, reply, -⟩
      · exact ⟨into, (Fault.overflow.inj (Except.error.inj overflow)).symm⟩
      · cases reply
    · rintro ⟨into, rfl⟩
      obtain ⟨m₁, rfl, calls⟩ := calls_of_callsInto into
      exact ⟨m₁, rfl, calls⟩

/-- The first call adds one to the greatest word. The host replaces the one, and the next call goes
through the same instruction. -/
theorem ideal_handles_of_handles_after_overflow :
    let m := ofProgram [1101, 9223372036854775807, 1, 7, 4, 7, 99]
    let requests : List Request := [.call, .write 2 (-1), .feed [5]]
    let ready : Machine := { m with memory := m.memory.set 2 (-1), inbox := ⟨[5]⟩ }
    let done : Machine :=
      { ready with ip := 6, memory := ready.memory.set 7 9223372036854775806, state := .halted }
    m.ideal.CallsInto m.ideal ∧ m.Handles requests ready ∧
      (IdealMachine.ofImage [1101, 9223372036854775807, 1, 7, 4, 7, 99]).Handles requests
        ready.ideal ∧
      ready.ideal.Calls ⟨done.ideal, .ok [9223372036854775806]⟩ := by
  intro m requests ready done
  have exceeds : m.Calls ⟨m, .error (.overflow 0)⟩ := ⟨9, by subst m; rfl⟩
  have halts : ready.Calls ⟨done, .ok [9223372036854775806]⟩ :=
    ⟨9, by subst ready m; rfl⟩
  have handles : m.Handles requests ready := .call exceeds (.write (.feed .nil))
  obtain ⟨-, -, -, overflow⟩ := ideal_handles_of_handles (m := m) .nil
  obtain ⟨ideal, ok, -, -⟩ := ideal_handles_of_handles handles
  exact ⟨((overflow _ _).1 ⟨m, rfl, exceeds⟩).1, handles, ideal, ok _ _ halts⟩

end Machine

end WordMachine
