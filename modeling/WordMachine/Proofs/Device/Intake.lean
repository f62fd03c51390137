import WordMachine.Device.Error
import WordMachine.Proofs.Machine.Resumption
import WordMachine.Proofs.Session

namespace WordMachine

/-- The records of a device with their width in words. Also a record that is refused may leave its
mark. -/
structure Intake (σ ρ : Type) where
  width : Nat
  records : List Word → List ρ
  obey : σ → ρ → σ × Except DeviceError Unit

namespace Intake

variable {t : Intake σ ρ}

def obeyAll (t : Intake σ ρ) : σ → List ρ → σ × Except DeviceError Unit
  | s, [] => (s, .ok ())
  | s, record :: rest =>
    match t.obey s record with
    | (s, .ok ()) => t.obeyAll s rest
    | (s, .error e) => (s, .error e)

def fault? (t : Intake σ ρ) (r : Reply) : Option DeviceError :=
  match r.result with
  | .error cause => some (.machine cause)
  | .ok output =>
    if output.length % t.width = 0 then none
    else some (.unexpectedOutput t.width output.length)

def recordsIn (t : Intake σ ρ) (r : Reply) : List ρ :=
  match r.result with
  | .error _ => []
  | .ok output => if output.length % t.width = 0 then t.records output else []

def take (t : Intake σ ρ) (s : σ) (r : Reply) : σ × Except DeviceError Unit :=
  match t.fault? r with
  | some e => (s, .error e)
  | none => t.obeyAll s (t.recordsIn r)

/-- The replies to a device, from the given round on, until one of them goes wrong or no more are
asked for. The first is that of the given machine. Each other one is that of the machine that the
call before has left, fed with the answer to what it has put out. -/
inductive Course (t : Intake σ ρ) (answer : Nat → σ → Word → Prop) :
    Nat → Machine → σ → List Reply → σ → Except DeviceError Unit → Prop
  | done {n : Nat} {m : Machine} {s : σ} : Course t answer n m s [] s (.ok ())
  | stop {n : Nat} {m : Machine} {s s₁ : σ} {r : Reply} {e : DeviceError} :
    m.Calls r → t.take s r = (s₁, .error e) → Course t answer n m s [r] s₁ (.error e)
  | last {n : Nat} {m : Machine} {s s₁ : σ} {r : Reply} :
    m.Calls r → t.take s r = (s₁, .ok ()) → Course t answer n m s [r] s₁ (.ok ())
  | round {n : Nat} {m : Machine} {s s₁ s₂ : σ} {r : Reply} {w : Word} {replies : List Reply}
    {result : Except DeviceError Unit} :
    m.Calls r → t.take s r = (s₁, .ok ()) → answer n s₁ w →
    Course t answer (n + 1) (r.machine.enqueue [w]) s₁ replies s₂ result →
    Course t answer n m s (r :: replies) s₂ result

theorem obeyAll_cons_of_ok (h : t.obey s record = (s₁, .ok ())) (rest : List ρ) :
    t.obeyAll s (record :: rest) = t.obeyAll s₁ rest := by
  simp [obeyAll, h]

theorem obeyAll_cons_of_error (h : t.obey s record = (s₁, .error e)) (rest : List ρ) :
    t.obeyAll s (record :: rest) = (s₁, .error e) := by
  simp [obeyAll, h]

theorem obeyAll_append_of_ok (h : t.obeyAll s first = (s₁, .ok ())) (second : List ρ) :
    t.obeyAll s (first ++ second) = t.obeyAll s₁ second := by
  induction first generalizing s with
  | nil =>
    cases h
    rfl
  | cons record first ih =>
    rcases obeys : t.obey s record with ⟨s₂, result⟩
    cases result with
    | error e => simp [obeyAll_cons_of_error obeys] at h
    | ok =>
      rw [obeyAll_cons_of_ok obeys] at h
      rw [List.cons_append, obeyAll_cons_of_ok obeys, ih h]

theorem fault?_eq_none_iff {r : Reply} :
    t.fault? r = none ↔ ∃ output, r.result = .ok output ∧ output.length % t.width = 0 := by
  unfold fault?
  cases r.result <;> simp

theorem take_of_error {r : Reply} (h : r.result = .error cause) (s : σ) :
    t.take s r = (s, .error (.machine cause)) := by
  simp [take, fault?, h]

theorem take_of_part {r : Reply} (h : r.result = .ok output) (part : output.length % t.width ≠ 0)
    (s : σ) : t.take s r = (s, .error (.unexpectedOutput t.width output.length)) := by
  simp [take, fault?, h, part]

theorem take_of_whole {r : Reply} (h : r.result = .ok output) (whole : output.length % t.width = 0)
    (s : σ) : t.take s r = t.obeyAll s (t.records output) := by
  simp [take, fault?, recordsIn, h, whole]

theorem recordsIn_of_fault? {r : Reply} (h : t.fault? r = some e) : t.recordsIn r = [] := by
  unfold fault? at h
  unfold recordsIn
  split at h
  · rfl
  · split at h
    · cases h
    · next part => rw [if_neg part]

theorem take_eq_ok_iff {r : Reply} :
    t.take s r = (s₁, .ok ()) ↔
      t.fault? r = none ∧ t.obeyAll s (t.recordsIn r) = (s₁, .ok ()) := by
  unfold take
  cases t.fault? r <;> simp

theorem take_eq_error_iff {r : Reply} :
    t.take s r = (s₁, .error e) ↔
      t.fault? r = some e ∧ s = s₁ ∨
        t.fault? r = none ∧ t.obeyAll s (t.recordsIn r) = (s₁, .error e) := by
  unfold take
  cases t.fault? r with
  | none => simp
  | some e₁ => simp [and_comm]

theorem eq_ok_iff {result : Except ε Unit} : result = .ok () ↔ ∀ e, result ≠ .error e := by
  cases result <;> simp

namespace Course

variable {m : Machine} {answer : Nat → σ → Word → Prop}

theorem left_eq (h : t.Course answer n m s replies s₁ result) :
    s₁ = (t.obeyAll s (replies.flatMap t.recordsIn)).1 := by
  induction h with
  | done => rfl
  | stop _ take =>
    rw [List.flatMap_singleton]
    rcases take_eq_error_iff.1 take with ⟨fault, rfl⟩ | ⟨-, obeys⟩
    · rw [recordsIn_of_fault? fault]
      rfl
    · rw [obeys]
  | last _ take => rw [List.flatMap_singleton, (take_eq_ok_iff.1 take).2]
  | round _ take _ _ ih =>
    rw [List.flatMap_cons, obeyAll_append_of_ok (take_eq_ok_iff.1 take).2, ih]

theorem result_eq_error_iff (h : t.Course answer n m s replies s₁ result) :
    result = .error e ↔
      (∃ r ∈ replies, t.fault? r = some e) ∨
        (t.obeyAll s (replies.flatMap t.recordsIn)).2 = .error e := by
  induction h with
  | done => simp [obeyAll]
  | stop _ take =>
    rw [List.flatMap_singleton]
    rcases take_eq_error_iff.1 take with ⟨fault, rfl⟩ | ⟨fine, obeys⟩
    · simp [recordsIn_of_fault? fault, fault, obeyAll]
    · simp [fine, obeys]
  | last _ take =>
    obtain ⟨fine, obeys⟩ := take_eq_ok_iff.1 take
    simp [fine, obeys]
  | round _ take _ _ ih =>
    obtain ⟨fine, obeys⟩ := take_eq_ok_iff.1 take
    rw [List.flatMap_cons, obeyAll_append_of_ok obeys, ih]
    simp [fine]

theorem result_eq_ok_iff (h : t.Course answer n m s replies s₁ result) :
    result = .ok () ↔ (∀ r ∈ replies, t.fault? r = none) ∧
      (t.obeyAll s (replies.flatMap t.recordsIn)).2 = .ok () := by
  have fine_iff : (∀ r ∈ replies, t.fault? r = none) ↔
      ∀ e, ¬∃ r ∈ replies, t.fault? r = some e := by
    simp only [Option.eq_none_iff_forall_ne_some]
    exact ⟨fun fine e ⟨r, member, fault⟩ => fine r member e fault,
      fun fine r member e fault => fine e ⟨r, member, fault⟩⟩
  rw [fine_iff, eq_ok_iff, eq_ok_iff, ← forall_and]
  simp only [ne_eq, h.result_eq_error_iff, not_or]

end Course

end Intake

end WordMachine
