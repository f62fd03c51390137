import Mathlib.Logic.Basic
import WordMachine.Proofs.Machine.Run

/-!
Resumption. A machine that is fed and called in turns goes through the same instructions as one that
is fed everything first and then called once: the calls only cut the run at the places where input
is missing.
-/

namespace WordMachine

def Step.map (f : Machine → Machine) : Step → Step
  | .next m emitted => .next (f m) emitted
  | .waiting m => .waiting (f m)
  | .halted m => .halted (f m)
  | .fault cause m => .fault cause (f m)

namespace Machine

def enqueue (m : Machine) (words : List Word) : Machine :=
  { m with inbox := ⟨m.inbox.waiting ++ words⟩ }

@[simp] theorem state_enqueue (m : Machine) (words : List Word) :
    (m.enqueue words).state = m.state := rfl

@[simp] theorem enqueue_nil (m : Machine) : m.enqueue [] = m := by
  simp [enqueue]

theorem enqueue_append (m : Machine) (first second : List Word) :
    m.enqueue (first ++ second) = (m.enqueue first).enqueue second := by
  simp [enqueue]

theorem feed_eq_ok_iff {m : Machine} :
    m.feed batch = .ok m₁ ↔ batch ≠ [] ∧ m₁ = m.enqueue batch := by
  cases batch with
  | nil => simp [feed, Inbox.push, bind, Except.bind]
  | cons w batch => simp [feed, Inbox.push, bind, Except.bind, pure, Except.pure, enqueue, eq_comm]

theorem feed_eq_enqueue (m : Machine) {batch : List Word} (h : batch ≠ []) :
    m.feed batch = .ok (m.enqueue batch) :=
  feed_eq_ok_iff.2 ⟨h, rfl⟩

theorem apply_enqueue (m : Machine) (width : Nat) (effect : Effect) (words : List Word)
    (h : ∀ m₁, m.apply width effect ≠ .waiting m₁) :
    (m.enqueue words).apply width effect = (m.apply width effect).map (·.enqueue words) := by
  cases effect with
  | store address value =>
    simp only [apply]
    split <;> rfl
  | receive address =>
    cases queue : m.inbox.waiting with
    | nil => simp [apply, Inbox.pop?, queue] at h
    | cons value rest =>
      simp only [apply, Inbox.pop?, enqueue, queue, List.cons_append]
      split <;> rfl
  | emit value => rfl
  | rebase base => rfl
  | jump target => rfl
  | proceed => rfl
  | halt => rfl

theorem step_enqueue (m : Machine) (words : List Word) (h : ∀ m₁, m.step ≠ .waiting m₁) :
    (m.enqueue words).step = m.step.map (·.enqueue words) := by
  have fetch : (m.enqueue words).fetch = m.fetch := rfl
  unfold step at h ⊢
  rw [fetch]
  cases fetched : m.fetch with
  | error cause => rfl
  | ok i =>
    have effect : (m.enqueue words).effect i = m.effect i := rfl
    simp only [fetched] at h
    dsimp only
    rw [effect]
    cases known : m.effect i with
    | error cause => rfl
    | ok effect =>
      simp only [known] at h
      exact apply_enqueue m i.width effect words h

theorem step_enqueue_of_next {m : Machine} (words : List Word) (h : m.step = .next m₁ emitted) :
    (m.enqueue words).step = .next (m₁.enqueue words) emitted := by
  rw [step_enqueue m words (by simp [h]), h]
  rfl

theorem Runs.enqueue_of_error {m : Machine} (h : m.Runs r) (words : List Word)
    (failed : r.result = .error cause) :
    (m.enqueue words).Runs ⟨r.machine.enqueue words, .error cause⟩ := by
  induction h with
  | waiting step => simp at failed
  | halted step => simp at failed
  | @fault m m₁ cause₁ step =>
    cases failed
    apply Runs.fault
    rw [step_enqueue m words (by simp [step]), step]
    rfl
  | @next m m₁ emitted r step _ ih =>
    rw [Reply.result_after_eq_error_iff] at failed
    exact .next (step_enqueue_of_next words step) (ih failed)

theorem Runs.enqueue_iff {m : Machine} (h : m.Runs r₀) (words : List Word)
    (active : m.state = .active) (ok : r₀.result = .ok output) :
    (m.enqueue words).Runs r ↔
      ∃ r₁, (r₀.machine.enqueue words).Calls r₁ ∧ r = r₁.after output := by
  induction h generalizing output r with
  | @waiting m m₁ step =>
    cases ok
    obtain rfl := eq_of_step_waiting step
    have resumed : m.enqueue words = { m.enqueue words with state := .active } := by
      cases m
      cases active
      rfl
    have calls : (({ m with state := .waiting } : Machine).enqueue words).Calls r ↔
        (m.enqueue words).Runs r := by
      rw [resumed]
      exact calls_iff_runs (by simp)
    simp [calls]
  | @halted m m₁ step =>
    cases ok
    obtain rfl := eq_of_step_halted step
    have step₁ : (m.enqueue words).step =
        .halted (({ m with state := .halted } : Machine).enqueue words) := by
      rw [step_enqueue m words (by simp [step]), step]
      rfl
    have calls := calls_iff_of_halted (r := r)
      (m := ({ m with state := .halted } : Machine).enqueue words) (by simp)
    simp [runs_iff_of_halted step₁, calls]
  | fault step => simp at ok
  | @next m m₁ emitted r₂ step _ ih =>
    obtain ⟨rest, ok₁, rfl⟩ := Reply.result_after_eq_ok_iff.1 ok
    have active₁ : m₁.state = .active := by
      rw [state_of_step_next step, active]
    have rest_iff := fun r => ih (r := r) active₁ ok₁
    simp only [runs_iff_of_next (step_enqueue_of_next words step), rest_iff]
    constructor
    · rintro ⟨r₃, ⟨r₁, calls, rfl⟩, rfl⟩
      exact ⟨r₁, calls, by simp⟩
    · rintro ⟨r₁, calls, rfl⟩
      exact ⟨_, ⟨r₁, calls, rfl⟩, by simp⟩

theorem Runs.of_enqueue {m : Machine} {words : List Word} (h : (m.enqueue words).Runs r) :
    ∃ r₀, m.Runs r₀ := by
  generalize longer : m.enqueue words = m₂ at h
  induction h generalizing m with
  | @next m₂ m₃ emitted r step _ ih =>
    rcases m.runs_or_next with runs | ⟨m₁, out, step₁⟩
    · exact runs
    · rw [← longer, step_enqueue_of_next words step₁] at step
      cases step
      obtain ⟨r₀, runs⟩ := ih rfl
      exact ⟨_, .next step₁ runs⟩
  | waiting step =>
    rcases m.runs_or_next with runs | ⟨m₁, out, step₁⟩
    · exact runs
    · simp [← longer, step_enqueue_of_next words step₁] at step
  | halted step =>
    rcases m.runs_or_next with runs | ⟨m₁, out, step₁⟩
    · exact runs
    · simp [← longer, step_enqueue_of_next words step₁] at step
  | fault step =>
    rcases m.runs_or_next with runs | ⟨m₁, out, step₁⟩
    · exact runs
    · simp [← longer, step_enqueue_of_next words step₁] at step

theorem Calls.enqueue_of_error {m : Machine} (h : m.Calls ⟨m₁, .error cause⟩)
    (words : List Word) : (m.enqueue words).Calls ⟨m₁.enqueue words, .error cause⟩ := by
  by_cases halted : m.state = .halted
  · simp [calls_iff_of_halted halted] at h
  · rw [calls_iff_runs halted] at h
    rw [calls_iff_runs (by simpa using halted)]
    exact h.enqueue_of_error words rfl

theorem Calls.enqueue_iff {m : Machine} (h : m.Calls ⟨m₁, .ok output⟩) (words : List Word) :
    (m.enqueue words).Calls r ↔ ∃ r₁, (m₁.enqueue words).Calls r₁ ∧ r = r₁.after output := by
  by_cases halted : m.state = .halted
  · simp only [calls_iff_of_halted halted, Reply.mk.injEq, Except.ok.injEq] at h
    obtain ⟨rfl, rfl⟩ := h
    simp
  · rw [calls_iff_runs halted] at h
    rw [calls_iff_runs (by simpa using halted)]
    exact h.enqueue_iff words rfl rfl

theorem Calls.of_enqueue {m : Machine} {words : List Word} (h : (m.enqueue words).Calls r) :
    ∃ r₀, m.Calls r₀ := by
  by_cases halted : m.state = .halted
  · exact ⟨_, (calls_iff_of_halted halted).2 rfl⟩
  · rw [calls_iff_runs (by simpa using halted)] at h
    simp only [calls_iff_runs halted]
    exact Runs.of_enqueue h

inductive Turn
  | feed (batch : List Word)
  | call
  deriving DecidableEq

/-- How it goes with a machine that is fed and called in turns. The first call that fails ends it,
with some turns left. -/
inductive Outcome
  | finished (m : Machine) (output : List Word)
  | stopped (m : Machine) (cause : Fault) (left : List Turn)

def Outcome.after (output : List Word) : Outcome → Outcome
  | .finished m rest => .finished m (output ++ rest)
  | .stopped m cause left => .stopped m cause left

inductive Follows : Machine → List Turn → Outcome → Prop
  | done : Follows m [] (.finished m [])
  | feed : m.feed batch = .ok m₁ → Follows m₁ turns outcome →
    Follows m (.feed batch :: turns) outcome
  | call : m.Calls ⟨m₁, .ok output⟩ → Follows m₁ turns outcome →
    Follows m (.call :: turns) (outcome.after output)
  | fault : m.Calls ⟨m₁, .error cause⟩ → Follows m (.call :: turns) (.stopped m₁ cause turns)

def fed : List Turn → List (List Word)
  | [] => []
  | .feed batch :: turns => batch :: fed turns
  | .call :: turns => fed turns

def Outcome.reply : Outcome → Reply
  | .finished m output => ⟨m, .ok output⟩
  | .stopped m cause left => ⟨m.enqueue (fed left).flatten, .error cause⟩

@[simp] theorem Outcome.reply_finished (m : Machine) (output : List Word) :
    (Outcome.finished m output).reply = ⟨m, .ok output⟩ := rfl

@[simp] theorem Outcome.reply_stopped (m : Machine) (cause : Fault) (left : List Turn) :
    (Outcome.stopped m cause left).reply = ⟨m.enqueue (fed left).flatten, .error cause⟩ := rfl

@[simp] theorem Outcome.reply_after (output : List Word) (outcome : Outcome) :
    (outcome.after output).reply = outcome.reply.after output := by
  cases outcome <;> rfl

theorem follows_nil_iff {m : Machine} : Follows m [] outcome ↔ outcome = .finished m [] := by
  constructor
  · rintro ⟨⟩
    rfl
  · rintro rfl
    exact .done

theorem follows_feed_iff {m : Machine} (h : batch ≠ []) :
    Follows m (.feed batch :: turns) outcome ↔ Follows (m.enqueue batch) turns outcome := by
  constructor
  · intro follows
    cases follows with
    | feed fed follows =>
      rw [feed_eq_enqueue m h] at fed
      cases fed
      exact follows
  · exact .feed (feed_eq_enqueue m h)

theorem follows_call_iff {m : Machine} (h : m.Calls ⟨m₁, .ok output⟩) :
    Follows m (.call :: turns) outcome ↔
      ∃ rest, Follows m₁ turns rest ∧ outcome = rest.after output := by
  constructor
  · intro follows
    cases follows with
    | call calls follows =>
      cases h.unique calls
      exact ⟨_, follows, rfl⟩
    | fault calls => cases h.unique calls
  · rintro ⟨rest, follows, rfl⟩
    exact .call h follows

theorem follows_fault_iff {m : Machine} (h : m.Calls ⟨m₁, .error cause⟩) :
    Follows m (.call :: turns) outcome ↔ outcome = .stopped m₁ cause turns := by
  constructor
  · intro follows
    cases follows with
    | call calls follows => cases h.unique calls
    | fault calls =>
      cases h.unique calls
      rfl
  · rintro rfl
    exact .fault h

theorem calls_enqueue_fed_iff {m : Machine} {turns : List Turn} (last : turns.getLast? = some .call)
    (filled : ∀ batch ∈ fed turns, batch ≠ []) :
    (m.enqueue (fed turns).flatten).Calls r ↔
      ∃ outcome, Follows m turns outcome ∧ r = outcome.reply := by
  induction turns generalizing m r with
  | nil => simp at last
  | cons turn turns ih =>
    cases turn with
    | feed batch =>
      have last₁ : turns.getLast? = some .call := by
        cases turns <;> simp_all
      simp only [fed, List.mem_cons, forall_eq_or_imp] at filled
      simp only [fed, List.flatten_cons, enqueue_append, ih last₁ filled.2,
        follows_feed_iff filled.1]
    | call =>
      simp only [fed] at filled ⊢
      by_cases ends : ∃ r₀, m.Calls r₀
      · obtain ⟨⟨m₁, result⟩, calls⟩ := ends
        cases result with
        | error cause =>
          have failed := calls.enqueue_of_error (fed turns).flatten
          simp only [follows_fault_iff calls, exists_eq_left]
          constructor
          · intro h
            exact h.unique failed
          · rintro rfl
            exact failed
        | ok output =>
          simp only [follows_call_iff calls]
          cases turns with
          | nil =>
            simp only [fed, List.flatten_nil, enqueue_nil, follows_nil_iff]
            constructor
            · intro h
              exact ⟨_, ⟨_, rfl, rfl⟩, by simpa using h.unique calls⟩
            · rintro ⟨outcome, ⟨rest, rfl, rfl⟩, rfl⟩
              simpa using calls
          | cons turn turns =>
            have last₁ : (turn :: turns).getLast? = some .call := by
              simpa using last
            simp only [calls.enqueue_iff, ih last₁ filled]
            constructor
            · rintro ⟨r₁, ⟨rest, follows, rfl⟩, rfl⟩
              exact ⟨_, ⟨rest, follows, rfl⟩, by simp⟩
            · rintro ⟨outcome, ⟨rest, follows, rfl⟩, rfl⟩
              exact ⟨_, ⟨rest, follows, rfl⟩, by simp⟩
      · constructor
        · intro h
          exact absurd h.of_enqueue ends
        · rintro ⟨outcome, follows, rfl⟩
          cases follows with
          | call calls follows => exact absurd ⟨_, calls⟩ ends
          | fault calls => exact absurd ⟨_, calls⟩ ends

/-- Feeding and calling in turns is feeding at once and calling once, with the same output, the same
fault and the same machine. What is still to be fed when a call fails waits in the queue of the
machine that has been fed at once. One ends if the other does. -/
theorem calls_feed_flatten_iff_follows (m : Machine) (batches : List (List Word))
    (turns : List Turn) (some_batch : batches ≠ []) (filled : ∀ batch ∈ batches, batch ≠ [])
    (feeds : fed turns = batches) (last : turns.getLast? = some .call) :
    ∃ full, m.feed batches.flatten = .ok full ∧
      (∀ m₁ output, full.Calls ⟨m₁, .ok output⟩ ↔ Follows m turns (.finished m₁ output)) ∧
      ∀ m₂ cause, full.Calls ⟨m₂, .error cause⟩ ↔
        ∃ m₁ left, Follows m turns (.stopped m₁ cause left) ∧
          m₂ = m₁.enqueue (fed left).flatten := by
  subst feeds
  have flatten_ne : (fed turns).flatten ≠ [] := by
    obtain ⟨batch, rest, eq⟩ := List.exists_cons_of_ne_nil some_batch
    simp [eq, filled batch (by simp [eq])]
  refine ⟨_, feed_eq_enqueue m flatten_ne, ?_, ?_⟩
  · intro m₁ output
    rw [calls_enqueue_fed_iff last filled]
    constructor
    · rintro ⟨outcome, follows, reply⟩
      cases outcome with
      | finished m₂ output₁ =>
        cases reply
        exact follows
      | stopped m₂ cause left => simp at reply
    · intro follows
      exact ⟨_, follows, rfl⟩
  · intro m₂ cause
    rw [calls_enqueue_fed_iff last filled]
    constructor
    · rintro ⟨outcome, follows, reply⟩
      cases outcome with
      | finished m₁ output => simp at reply
      | stopped m₁ cause₁ left =>
        cases reply
        exact ⟨m₁, left, follows, rfl⟩
    · rintro ⟨m₁, left, follows, rfl⟩
      exact ⟨_, follows, rfl⟩

theorem calls_feed_flatten_negative_target :
    let m := ofProgram [3, 20, 4, 20, 3, -1]
    let turns : List Turn := [.call, .feed [7], .call, .feed [8, 9], .call, .feed [5], .call]
    let failed : Machine := { m with ip := 4, memory := m.memory.set 20 7, inbox := ⟨[9]⟩ }
    Follows m turns (.stopped failed (.invalidAddress (-1)) [.feed [5], .call]) ∧
      ∃ full, m.feed [7, 8, 9, 5] = .ok full ∧
        full.Calls ⟨{ failed with inbox := ⟨[9, 5]⟩ }, .error (.invalidAddress (-1))⟩ := by
  intro m turns failed
  have first : m.Calls ⟨{ m with state := .waiting }, .ok []⟩ := ⟨9, by subst m; rfl⟩
  have second : Calls { m with inbox := ⟨[7]⟩, state := .waiting }
      ⟨{ m with ip := 4, memory := m.memory.set 20 7, state := .waiting }, .ok [7]⟩ :=
    ⟨9, by subst m; rfl⟩
  have third : Calls { failed with inbox := ⟨[8, 9]⟩, state := .waiting }
      ⟨failed, .error (.invalidAddress (-1))⟩ := ⟨9, by subst failed m; rfl⟩
  have follows : Follows m turns (.stopped failed (.invalidAddress (-1)) [.feed [5], .call]) :=
    .call first (.feed rfl (.call second (.feed rfl (.fault third))))
  obtain ⟨full, feed, -, stopped⟩ := calls_feed_flatten_iff_follows m [[7], [8, 9], [5]] turns
    (by decide) (by decide) rfl rfl
  exact ⟨follows, full, feed, (stopped _ _).2 ⟨_, _, follows, rfl⟩⟩

end Machine

end WordMachine
