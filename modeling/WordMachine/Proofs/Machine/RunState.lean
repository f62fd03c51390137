import WordMachine.Proofs.Machine.Equality
import WordMachine.Proofs.Machine.Failure

namespace WordMachine

def Step.machine : Step → Machine
  | .next m _ => m
  | .waiting m => m
  | .halted m => m
  | .fault _ m => m

def Operation.isWrite : Operation → Bool
  | .write _ _ => true
  | .feed _ | .read _ | .call => false

@[simp] theorem Memory.imageSize_set (m : Memory) (i : Nat) (w : Word) :
    (m.set i w).imageSize = m.imageSize := m.size_image_set i w

namespace Machine

theorem imageSize_apply (m : Machine) (width : Nat) (e : Effect) :
    (m.apply width e).machine.memory.imageSize = m.memory.imageSize := by
  cases e with
  | store address value =>
    simp only [apply]
    cases Word.index? address with
    | none => rfl
    | some cell => exact m.memory.imageSize_set cell value
  | receive address =>
    simp only [apply]
    cases m.inbox.pop? with
    | none => rfl
    | some popped =>
      cases Word.index? address with
      | none => rfl
      | some cell => exact m.memory.imageSize_set cell popped.1
  | emit | rebase | jump | proceed | halt => rfl

theorem imageSize_of_step {m : Machine} (h : m.step = s) :
    s.machine.memory.imageSize = m.memory.imageSize := by
  subst h
  unfold step
  cases m.fetch with
  | error cause => rfl
  | ok i =>
    dsimp only
    cases m.effect i with
    | error cause => rfl
    | ok e => exact m.imageSize_apply i.width e

theorem Advances.imageSize_eq {m m₁ : Machine} (h : Advances n m m₁) :
    m₁.memory.imageSize = m.memory.imageSize := by
  induction h with
  | start => rfl
  | next step _ ih => exact ih.trans (imageSize_of_step step)

theorem Runs.imageSize_eq {m : Machine} (h : m.Runs r) :
    r.machine.memory.imageSize = m.memory.imageSize := by
  induction h with
  | waiting step => exact imageSize_of_step step
  | halted step => exact imageSize_of_step step
  | fault step => exact imageSize_of_step step
  | next step _ ih => exact ih.trans (imageSize_of_step step)

theorem Calls.imageSize_eq {m : Machine} (h : m.Calls r) :
    r.machine.memory.imageSize = m.memory.imageSize := by
  by_cases halted : m.state = .halted
  · rw [(calls_iff_of_halted halted).1 h]
  · exact ((calls_iff_runs halted).1 h).imageSize_eq

theorem imageSize_feed (m : Machine) (batch : List Word) :
    ((m.feed batch).toOption.getD m).memory.imageSize = m.memory.imageSize := by
  cases batch <;> rfl

theorem imageSize_write (m : Machine) (address value : Word) :
    ((m.write address value).toOption.getD m).memory.imageSize = m.memory.imageSize := by
  unfold write Memory.write
  cases Word.index? address with
  | none => rfl
  | some cell => exact m.memory.imageSize_set cell value

theorem Handles.imageSize_eq {m m₁ : Machine} (h : m.Handles requests m₁) :
    m₁.memory.imageSize = m.memory.imageSize := by
  induction h with
  | nil => rfl
  | @feed m _ batch _ _ ih => exact ih.trans (m.imageSize_feed batch)
  | @write m _ address value _ _ ih => exact ih.trans (m.imageSize_write address value)
  | call calls _ ih => exact ih.trans calls.imageSize_eq

def PointsTo (m : Machine) (size : Nat) (opcode : Opcode) : Prop :=
  m.ip < size ∧ ∃ i, Instruction.decode (m.memory.get m.ip) m.ip = .ok i ∧ i.opcode = opcode

theorem pointsTo_of_fetch {m : Machine} (h : m.fetch = .ok i) :
    m.PointsTo m.memory.imageSize i.opcode := by
  unfold fetch at h
  split at h
  · next within => exact ⟨within, i, h, rfl⟩
  · cases h

theorem pointsTo_of_isAt {m : Machine} (h : m.isAt opcode) :
    m.PointsTo m.memory.imageSize opcode := by
  unfold isAt at h
  cases fetch : m.fetch with
  | error cause => simp [fetch] at h
  | ok i =>
    simp only [fetch, decide_eq_true_eq] at h
    exact h ▸ pointsTo_of_fetch fetch

theorem Runs.isAt_of_ok {m : Machine} (h : m.Runs r) (ok : r.result = .ok output) :
    r.machine.state = .waiting ∧ r.machine.inbox.waiting = [] ∧ r.machine.isAt .input ∨
      r.machine.state = .halted ∧ r.machine.isAt .halt := by
  induction h generalizing output with
  | waiting step =>
    obtain ⟨atInput, empty⟩ := isAt_of_step_waiting step
    obtain rfl := eq_of_step_waiting step
    exact .inl ⟨rfl, empty, atInput⟩
  | halted step =>
    have atHalt := isAt_of_step_halted step
    obtain rfl := eq_of_step_halted step
    exact .inr ⟨rfl, atHalt⟩
  | fault step => cases ok
  | next step _ ih =>
    obtain ⟨rest, ok₁, -⟩ := Reply.result_after_eq_ok_iff.1 ok
    exact ih ok₁

theorem Advances.runs_of_fetch {m m₁ : Machine} (h : Advances n m m₁)
    (fetch : m₁.fetch = .error cause) : m.Runs ⟨m₁, .error cause⟩ := by
  induction h with
  | start => exact .fault (by simp [step, fetch])
  | next step _ ih => exact .next step (ih fetch)

theorem Calls.pointsTo_of_advances {m : Machine} (h : m.Calls ⟨m₁, .ok output⟩)
    (running : m.state ≠ .halted) (advances : Advances n { m with state := .active } m₂) :
    ∃ opcode, m₂.PointsTo m.memory.imageSize opcode := by
  cases fetch : m₂.fetch with
  | error cause =>
    have failed := (calls_iff_runs running).2 (advances.runs_of_fetch fetch)
    cases h.unique failed
  | ok i => exact ⟨i.opcode, advances.imageSize_eq ▸ pointsTo_of_fetch fetch⟩

def StaysPut (m : Machine) (operation : Operation) (reply : Answer × Machine) : Prop :=
  (operation = .call → reply.1 = .output (.ok [])) ∧ { reply.2 with inbox := m.inbox } = m

theorem StaysPut.of_enqueue {m : Machine} {words : List Word}
    (h : (m.enqueue words).StaysPut operation reply) : m.StaysPut operation reply := by
  refine ⟨h.1, ?_⟩
  calc
    { reply.2 with inbox := m.inbox } =
        { ({ reply.2 with inbox := (m.enqueue words).inbox } : Machine) with inbox := m.inbox } :=
      rfl
    _ = { m.enqueue words with inbox := m.inbox } := by rw [h.2]
    _ = m := rfl

theorem exists_performs_of_halted {m : Machine} (halted : m.state = .halted)
    {operation : Operation} (h : ¬operation.isWrite) :
    ∃ answer words, m.Performs operation answer (m.enqueue words) ∧
      m.StaysPut operation (answer, m.enqueue words) := by
  cases operation with
  | feed batch =>
    have left : (m.feed batch).toOption.getD m = m.enqueue batch := by
      cases batch with
      | nil => exact m.enqueue_nil.symm
      | cons w batch => rfl
    have performs : m.Performs (.feed batch) _ ((m.feed batch).toOption.getD m) := .feed
    rw [left] at performs
    exact ⟨_, batch, performs, by simp, rfl⟩
  | write address value => exact absurd rfl h
  | read address => exact ⟨_, [], by simpa using .read, by simp, rfl⟩
  | call =>
    have stays : m.Calls ⟨m.enqueue [], .ok []⟩ := (calls_iff_of_halted halted).2 (by simp)
    exact ⟨_, [], .call stays, fun _ => rfl, rfl⟩

theorem exists_serves_of_halted {m : Machine} (halted : m.state = .halted)
    {operations : List Operation} (h : ∀ operation ∈ operations, ¬operation.isWrite) :
    ∃ replies, m.Serves operations replies ∧ List.Forall₂ m.StaysPut operations replies := by
  induction operations generalizing m with
  | nil => exact ⟨[], .nil, .nil⟩
  | cons operation operations ih =>
    simp only [List.mem_cons, forall_eq_or_imp] at h
    obtain ⟨answer, words, performs, stays⟩ := exists_performs_of_halted halted h.1
    obtain ⟨replies, serves, each⟩ := ih (m := m.enqueue words) halted h.2
    exact ⟨_, .cons performs serves, .cons stays (each.imp fun _ _ => .of_enqueue)⟩

/-- What a host can rely on, whatever it has asked of a machine before. A call of a machine that has
not halted, if it goes well, leaves it waiting or halted, at the instruction that the state names,
and has executed nothing from beyond the image of the program; a machine that gets there fails at
once. A machine that has halted answers every call with nothing, and nothing but its queue changes
until the host writes to it. -/
theorem run_state_of_handles (program : List Word) (requests : List Request) (m : Machine)
    (handles : (ofProgram program).Handles requests m) :
    (m.state ≠ .halted →
      (∀ m₁ output, m.Calls ⟨m₁, .ok output⟩ →
        (m₁.state = .waiting ∧ m₁.inbox.waiting = [] ∧ m₁.PointsTo program.length .input ∨
          m₁.state = .halted ∧ m₁.PointsTo program.length .halt) ∧
        m₁.memory.imageSize = program.length ∧
        ∀ n m₂, Advances n { m with state := .active } m₂ →
          ∃ opcode, m₂.PointsTo program.length opcode) ∧
      ∀ n m₂, Advances n { m with state := .active } m₂ → program.length ≤ m₂.ip →
        m.Calls ⟨m₂, .error (.ranOffImage m₂.ip)⟩) ∧
    (m.state = .halted →
      ∀ operations : List Operation, (∀ operation ∈ operations, ¬operation.isWrite) →
        ∃ replies, (∀ other, m.Serves operations other ↔ other = replies) ∧
          List.Forall₂ m.StaysPut operations replies) := by
  have size : m.memory.imageSize = program.length := handles.imageSize_eq
  refine ⟨fun running => ⟨?_, ?_⟩, ?_⟩
  · intro m₁ output calls
    have size₁ : m₁.memory.imageSize = program.length := calls.imageSize_eq.trans size
    have stands := ((calls_iff_runs running).1 calls).isAt_of_ok rfl
    refine ⟨?_, size₁, fun n m₂ advances => size ▸ calls.pointsTo_of_advances running advances⟩
    rw [← size₁]
    exact stands.imp (fun ⟨state, empty, atInput⟩ => ⟨state, empty, pointsTo_of_isAt atInput⟩)
      fun ⟨state, atHalt⟩ => ⟨state, pointsTo_of_isAt atHalt⟩
  · intro n m₂ advances beyond
    have size₂ : m₂.memory.imageSize = program.length := advances.imageSize_eq.trans size
    have fetch : m₂.fetch = .error (.ranOffImage m₂.ip) := if_neg (by omega)
    exact (calls_iff_runs running).2 (advances.runs_of_fetch fetch)
  · intro halted operations reads
    obtain ⟨replies, serves, each⟩ := exists_serves_of_halted halted reads
    refine ⟨replies, fun other => ⟨fun serves₁ => serves₁.unique serves, ?_⟩, each⟩
    rintro rfl
    exact serves

/-- The first program takes its halt instruction as input and executes it. The second stores one
beyond its image and jumps there, in vain. -/
theorem run_state_of_handles_rewritten :
    let m := ofProgram [3, 2, 0]
    let ready : Machine := { m with inbox := ⟨[99]⟩, state := .waiting }
    let done : Machine := { m with ip := 2, memory := m.memory.set 2 99, state := .halted }
    let operations : List Operation := [.feed [7], .call, .feed [], .call]
    let stray : Machine := { ofProgram [3, 20, 1105, 1, 20] with inbox := ⟨[99]⟩ }
    let lost : Machine := { stray with ip := 20, memory := stray.memory.set 20 99, inbox := ⟨[]⟩ }
    m.Handles [.call, .feed [99]] ready ∧ ready.Calls ⟨done, .ok []⟩ ∧ done.PointsTo 3 .halt ∧
      (∃ replies, done.Serves operations replies ∧
        List.Forall₂ done.StaysPut operations replies) ∧
      Instruction.decode (lost.memory.get 20) 20 = .ok ⟨.halt, .position, .position, .position⟩ ∧
      stray.Calls ⟨lost, .error (.ranOffImage 20)⟩ := by
  intro m ready done operations stray lost
  have waits : m.Calls ⟨{ m with state := .waiting }, .ok []⟩ := ⟨9, by subst m; rfl⟩
  have handles : m.Handles [.call, .feed [99]] ready := .call waits (.feed .nil)
  have halts : ready.Calls ⟨done, .ok []⟩ := ⟨9, by subst ready m; rfl⟩
  have ends : m.Handles [.call, .feed [99], .call] done := .call waits (.feed (.call halts .nil))
  have strays : (ofProgram [3, 20, 1105, 1, 20]).Handles [.feed [99]] stray := .feed .nil
  have advances : Advances 2 stray lost := by
    subst lost stray
    exact .next rfl (.next rfl .start)
  obtain ⟨running, -⟩ := run_state_of_handles [3, 2, 0] _ ready handles
  obtain ⟨goesWell, -⟩ := running (by decide)
  obtain ⟨rests, -⟩ := goesWell done [] halts
  obtain ⟨-, halted⟩ := run_state_of_handles [3, 2, 0] _ done ends
  obtain ⟨replies, serves, each⟩ := halted rfl operations (by decide)
  obtain ⟨astray, -⟩ := run_state_of_handles [3, 20, 1105, 1, 20] _ stray strays
  obtain ⟨-, leaves⟩ := astray (by decide)
  refine ⟨handles, halts, ?_, ⟨replies, (serves replies).2 rfl, each⟩, ?_, ?_⟩
  · simpa [done] using rests
  · subst lost stray
    rfl
  · exact leaves 2 lost advances (by decide)

end Machine

end WordMachine
