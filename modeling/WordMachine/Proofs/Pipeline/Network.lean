import Mathlib.Algebra.Group.Fin.Basic
import Mathlib.Logic.Function.Basic
import WordMachine.Proofs.Machine.History

/-!
Networks: machines in a ring, with a channel in front of each. In which order the machines are
called and fed from their channels has no influence on the streams that pass between them.
-/

namespace WordMachine

/-- A ring of `n + 1` machines with their channels, and with what every machine has been fed and has
put out so far. -/
structure Network (n : Nat) where
  stage : Fin (n + 1) → Machine
  channel : Fin (n + 1) → List Word
  taken : Fin (n + 1) → List Word
  emitted : Fin (n + 1) → List Word

namespace Network

inductive Action (n : Nat)
  | call (i : Fin (n + 1))
  | feed (i : Fin (n + 1)) (count : Nat)

def start (stage : Fin (n + 1) → Machine) (channel : Fin (n + 1) → List Word) : Network n where
  stage := stage
  channel := channel
  taken _ := []
  emitted _ := []

def emit (c : Network n) (i : Fin (n + 1)) (m : Machine) (output : List Word) : Network n where
  stage := Function.update c.stage i m
  channel := Function.update c.channel (i + 1) (c.channel (i + 1) ++ output)
  taken := c.taken
  emitted := Function.update c.emitted i (c.emitted i ++ output)

def take (c : Network n) (i : Fin (n + 1)) (m : Machine) (count : Nat) : Network n where
  stage := Function.update c.stage i m
  channel := Function.update c.channel i ((c.channel i).drop count)
  taken := Function.update c.taken i (c.taken i ++ (c.channel i).take count)
  emitted := c.emitted

/-- Calls a stage or feeds it from its channel. There is no result if the stage faults, if it does
not reply within `fuel` instructions or if there is nothing to feed. -/
def act (fuel : Nat) (c : Network n) : Action n → Option (Network n)
  | .call i =>
    match (c.stage i).call fuel with
    | some ⟨m, .ok output⟩ => some (c.emit i m output)
    | _ => none
  | .feed i count =>
    match (c.stage i).feed ((c.channel i).take count) with
    | .ok m => some (c.take i m count)
    | .error _ => none

def follow (fuel : Nat) (c : Network n) (actions : List (Action n)) : Option (Network n) :=
  actions.foldlM (act fuel) c

theorem act_call_eq_some {c : Network n} (h : c.act fuel (.call i) = some c₁) :
    ∃ m output, (c.stage i).Calls ⟨m, .ok output⟩ ∧ c₁ = c.emit i m output := by
  simp only [act] at h
  split at h
  · next m output called => exact ⟨m, output, ⟨fuel, called⟩, (Option.some.inj h).symm⟩
  · cases h

theorem act_feed_eq_some {c : Network n} (h : c.act fuel (.feed i count) = some c₁) :
    c₁ = c.take i ((c.stage i).enqueue ((c.channel i).take count)) count := by
  simp only [act] at h
  split at h
  · next m fed =>
    obtain ⟨-, rfl⟩ := Machine.feed_eq_ok_iff.1 fed
    exact (Option.some.inj h).symm
  · cases h

structure Balanced (stage₀ : Fin (n + 1) → Machine) (channel₀ : Fin (n + 1) → List Word)
    (c : Network n) : Prop where
  served : ∀ i, (stage₀ i).Served (c.taken i) (c.emitted i) (c.stage i)
  relayed : ∀ i, c.taken (i + 1) ++ c.channel (i + 1) = channel₀ (i + 1) ++ c.emitted i

def Agrees (c c₁ : Network n) : Prop :=
  ∀ i, Consistent (c.taken i) (c₁.taken i) ∧ Consistent (c.emitted i) (c₁.emitted i)

section

variable {stage₀ : Fin (n + 1) → Machine} {channel₀ : Fin (n + 1) → List Word}
  {c c₁ c₂ : Network n}

namespace Balanced

theorem start : Balanced stage₀ channel₀ (start stage₀ channel₀) where
  served _ := .start
  relayed i := by simp [Network.start]

theorem emit (h : Balanced stage₀ channel₀ c) (calls : (c.stage i).Calls ⟨m, .ok output⟩) :
    Balanced stage₀ channel₀ (c.emit i m output) := by
  constructor
  · intro j
    by_cases same : j = i
    · subst same
      simpa [Network.emit] using (h.served j).call calls
    · simpa [Network.emit, same] using h.served j
  · intro j
    by_cases same : j = i
    · subst same
      simp [Network.emit, ← List.append_assoc, h.relayed j]
    · have same₁ : j + 1 ≠ i + 1 := fun eq => same (add_right_cancel eq)
      simpa [Network.emit, same, same₁] using h.relayed j

theorem take (h : Balanced stage₀ channel₀ c) (i : Fin (n + 1)) (count : Nat) :
    Balanced stage₀ channel₀
      (c.take i ((c.stage i).enqueue ((c.channel i).take count)) count) := by
  constructor
  · intro j
    by_cases same : j = i
    · subst same
      simpa [Network.take] using (h.served j).feed _
    · simpa [Network.take, same] using h.served j
  · intro j
    by_cases same : j + 1 = i
    · subst same
      simpa [Network.take] using h.relayed j
    · simpa [Network.take, same] using h.relayed j

theorem act (h : Balanced stage₀ channel₀ c) (acted : c.act fuel action = some c₁) :
    Balanced stage₀ channel₀ c₁ := by
  cases action with
  | call i =>
    obtain ⟨m, output, calls, rfl⟩ := act_call_eq_some acted
    exact h.emit calls
  | feed i count =>
    obtain rfl := act_feed_eq_some acted
    exact h.take i count

theorem emitted_consistent (h : Balanced stage₀ channel₀ c) (h₂ : Balanced stage₀ channel₀ c₂)
    (taken : Consistent (c.taken i) (c₂.taken i)) : Consistent (c.emitted i) (c₂.emitted i) :=
  (h.served i).output_consistent (h₂.served i) taken

theorem taken_consistent (h : Balanced stage₀ channel₀ c) (h₂ : Balanced stage₀ channel₀ c₂)
    (emitted : Consistent (c.emitted i) (c₂.emitted i)) :
    Consistent (c.taken (i + 1)) (c₂.taken (i + 1)) := by
  have relayed := emitted.append_left (channel₀ (i + 1))
  rw [← h.relayed i, ← h₂.relayed i] at relayed
  exact relayed.of_prefix (List.prefix_append _ _) (List.prefix_append _ _)

end Balanced

theorem Agrees.act (h : Balanced stage₀ channel₀ c) (h₂ : Balanced stage₀ channel₀ c₂)
    (agrees : c.Agrees c₂) (acted : c.act fuel action = some c₁) : c₁.Agrees c₂ := by
  have h₁ := h.act acted
  intro i
  -- a call leaves alone what has been taken, and a feed what has been put out
  cases action with
  | call j =>
    obtain ⟨m, output, -, rfl⟩ := act_call_eq_some acted
    exact ⟨(agrees i).1, h₁.emitted_consistent h₂ (agrees i).1⟩
  | feed j count =>
    obtain rfl := act_feed_eq_some acted
    have taken := h₁.taken_consistent h₂ (agrees (i - 1)).2
    rw [sub_add_cancel] at taken
    exact ⟨taken, (agrees i).2⟩

theorem balanced_and_agrees_of_follow (h : Balanced stage₀ channel₀ c)
    (h₂ : Balanced stage₀ channel₀ c₂) (agrees : c.Agrees c₂)
    (followed : c.follow fuel actions = some c₁) :
    Balanced stage₀ channel₀ c₁ ∧ c₁.Agrees c₂ := by
  induction actions generalizing c with
  | nil =>
    obtain rfl := Option.some.inj followed
    exact ⟨h, agrees⟩
  | cons action actions ih =>
    simp only [follow, List.foldlM_cons, Option.bind_eq_bind, Option.bind_eq_some_iff] at followed
    obtain ⟨c₃, acted, followed⟩ := followed
    exact ih (h.act acted) (agrees.act h h₂ acted) followed

theorem eq_of_follow_of_halted (followed : (start stage₀ channel₀).follow fuel actions = some c)
    (h₂ : Balanced stage₀ channel₀ c₂) (halted : (c.stage i).isHalted)
    (halted₂ : (c₂.stage i).isHalted) :
    c.emitted i = c₂.emitted i ∧ (c.stage i).memory = (c₂.stage i).memory ∧
      (c.stage i).ip = (c₂.stage i).ip ∧
      (c.stage i).relativeBase = (c₂.stage i).relativeBase := by
  have fresh : (start stage₀ channel₀).Agrees c₂ := fun _ => ⟨.nil_left _, .nil_left _⟩
  obtain ⟨h, agrees⟩ := balanced_and_agrees_of_follow .start h₂ fresh followed
  exact (h.served i).eq_of_halted (h₂.served i) (agrees i).1 halted halted₂

end

end Network

end WordMachine
