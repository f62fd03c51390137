import WordMachine.Proofs.Pipeline.Relay
import WordMachine.Proofs.Session

namespace WordMachine

def PipelineError.behind (count : Nat) : PipelineError → PipelineError
  | .empty => .empty
  | .noOutput stage => .noOutput (count + stage)
  | .machine cause => .machine cause

namespace Pipeline

theorem ends_stage {m : Machine} (feed : m.feed batch = .ok m₁) (calls : m₁.Calls r) :
    (stage m batch).Ends r := by
  unfold stage
  rw [feed]
  exact Session.ends_call calls

namespace Relays

theorem ends_relay {stages stages₁ : List Machine} (h : Relays stages batch stages₁ result)
    (place : Nat) : (relay place stages batch).Ends (stages₁, .ok result) := by
  induction h generalizing place with
  | nil =>
    rw [relay_nil]
    exact Session.ends_pure _
  | @cons m m₁ m₂ rest rest₁ batch output result feed calls _ ih =>
    obtain ⟨filled, -⟩ := Machine.feed_eq_ok_iff.1 feed
    obtain ⟨w, batch, rfl⟩ := List.exists_cons_of_ne_nil filled
    rw [relay_cons_cons]
    exact (ends_stage feed calls).bind ((ih (place + 1)).bind (Session.ends_pure _))

theorem ends_pass {p p₁ : Pipeline} (h : Relays p.stages batch p₁.stages result) :
    (p.pass batch).Ends (p₁, .ok result) := by
  obtain ⟨first, rest⟩ := p
  obtain ⟨first₁, rest₁⟩ := p₁
  cases h with
  | cons feed calls relays =>
    exact (ends_stage feed calls).bind ((relays.ends_relay 0).bind (Session.ends_pure _))

theorem append {stages stages₁ stages₂ : List Machine} (h : Relays stages batch stages₁ result)
    (h₁ : Relays stages₁ batch₁ stages₂ result₁) :
    Relays stages (batch ++ batch₁) stages₂ (result ++ result₁) := by
  induction h generalizing batch₁ stages₂ result₁ with
  | nil =>
    cases h₁
    exact .nil
  | @cons m m₁ m₂ rest rest₁ batch output result feed calls _ ih =>
    cases h₁ with
    | cons feed₁ calls₁ relays₁ =>
      obtain ⟨filled, rfl⟩ := Machine.feed_eq_ok_iff.1 feed
      obtain ⟨-, rfl⟩ := Machine.feed_eq_ok_iff.1 feed₁
      refine .cons (Machine.feed_eq_enqueue m (by simp [filled])) ?_ (ih relays₁)
      rw [Machine.enqueue_append]
      exact (calls.enqueue_iff batch₁).2 ⟨_, calls₁, rfl⟩

end Relays

/-- Two batches in a row put out together what they put out one after the other, and leave the same
stages. -/
theorem pass_append_batch (p p₁ p₂ : Pipeline) (batch batch₁ output output₁ : List Word)
    (first : (p.pass batch).Ends (p₁, .ok output))
    (second : (p₁.pass batch₁).Ends (p₂, .ok output₁)) :
    (p.pass (batch ++ batch₁)).Ends (p₂, .ok (output ++ output₁)) := by
  obtain ⟨limit, first⟩ := first
  obtain ⟨limit₁, second⟩ := second
  have relays := relays_of_value_pass first
  have relays₁ := relays_of_value_pass second
  exact (relays.append relays₁).ends_pass

theorem pass_append_batch_unread :
    let p : Pipeline :=
      ⟨.ofProgram [3, 10, 4, 10, 1105, 1, 0], [.ofProgram [3, 10, 4, 10, 99]]⟩
    ∃ p₁ p₂, (p.pass [5]).Ends (p₁, .ok [5]) ∧ (p₁.pass [6, 7]).Ends (p₂, .ok []) ∧
      (p.pass [5, 6, 7]).Ends (p₂, .ok [5]) ∧ p₂.last.inbox.waiting = [6, 7] := by
  intro p
  obtain ⟨p₁, p₂, first, second, queue⟩ : ∃ p₁ p₂, (p.pass [5]).value 9 = some (p₁, .ok [5]) ∧
      (p₁.pass [6, 7]).value 9 = some (p₂, .ok []) ∧ p₂.last.inbox.waiting = [6, 7] := by
    subst p
    exact ⟨_, _, rfl, rfl, rfl⟩
  have together := pass_append_batch p p₁ p₂ [5] [6, 7] [5] [] ⟨9, first⟩ ⟨9, second⟩
  exact ⟨p₁, p₂, ⟨9, first⟩, ⟨9, second⟩, together, queue⟩

instance : Append Pipeline := ⟨fun p q => ⟨p.first, p.rest ++ q.stages⟩⟩

@[simp] theorem mk_append (first : Machine) (rest : List Machine) (q : Pipeline) :
    mk first rest ++ q = ⟨first, rest ++ q.stages⟩ := rfl

theorem relay_append (place : Nat) (stages stages₁ : List Machine) (batch : List Word) :
    relay place (stages ++ stages₁) batch = do
      let (called, result) ← relay place stages batch
      match result with
      | .error e => return (called ++ stages₁, .error e)
      | .ok output =>
        let (called₁, result) ← relay (place + stages.length) stages₁ output
        return (called ++ called₁, result) := by
  induction stages generalizing place batch with
  | nil => simp
  | cons m rest ih =>
    cases batch with
    | nil => simp
    | cons w batch =>
      simp only [List.cons_append, relay_cons_cons, bind_assoc]
      congr 1
      funext reply
      cases reply.result with
      | error cause => simp
      | ok output =>
        simp only [ih, bind_assoc]
        congr 1
        funext relayed
        obtain ⟨called, result⟩ := relayed
        cases result with
        | error e => simp
        | ok output => simp [Nat.add_assoc, Nat.add_comm 1]

theorem relay_behind (count place : Nat) (stages : List Machine) (batch : List Word) :
    relay (count + place) stages batch =
      (fun (called, result) => (called, result.mapError (.behind count))) <$>
        relay place stages batch := by
  induction stages generalizing place batch with
  | nil => rfl
  | cons m rest ih =>
    cases batch with
    | nil => rfl
    | cons w batch =>
      simp only [relay_cons_cons, map_bind]
      congr 1
      funext reply
      cases reply.result with
      | error cause => rfl
      | ok output => simp [Nat.add_assoc, ih]

theorem relay_stages (place : Nat) (q : Pipeline) (w : Word) (batch : List Word) :
    relay place q.stages (w :: batch) =
      (fun (q₁, result) => (q₁.stages, result.mapError (.behind (place + 1)))) <$>
        q.pass (w :: batch) := by
  simp only [stages, relay_cons_cons, pass, map_bind]
  congr 1
  funext reply
  cases reply.result with
  | error cause => rfl
  | ok output =>
    have rest := relay_behind (place + 1) 0 q.rest output
    simp only [Nat.add_zero] at rest
    simp [rest]

theorem pass_append (p q : Pipeline) (batch : List Word) :
    (p ++ q).pass batch = do
      let (p₁, result) ← p.pass batch
      match result with
      | .error e => return (p₁ ++ q, .error e)
      | .ok [] => return (p₁ ++ q, .error (.noOutput p.lastStage))
      | .ok output =>
        let (q₁, result) ← q.pass output
        return (p₁ ++ q₁, result.mapError (.behind p.stages.length)) := by
  obtain ⟨first, rest⟩ := p
  rw [mk_append, pass, pass]
  simp only [bind_assoc]
  congr 1
  funext reply
  cases reply.result with
  | error cause => simp
  | ok output =>
    simp only [relay_append, bind_assoc]
    congr 1
    funext relayed
    obtain ⟨called, result⟩ := relayed
    cases result with
    | error e => simp
    | ok output =>
      cases output with
      | nil => simp [stages, lastStage]
      | cons w output =>
        have length : (mk first rest).stages.length = rest.length + 1 := rfl
        simp [relay_stages, length]

theorem length_of_value_relay {stages : List Machine}
    (h : (relay place stages batch).value limit = some (stages₁, result)) :
    stages₁.length = stages.length := by
  induction stages generalizing place batch stages₁ with
  | nil =>
    simp only [relay_nil, Session.value_pure, Option.some.injEq, Prod.mk.injEq] at h
    rw [← h.1]
  | cons m rest ih =>
    cases batch with
    | nil =>
      simp only [relay_cons_nil, Session.value_pure, Option.some.injEq, Prod.mk.injEq] at h
      rw [← h.1]
    | cons w batch =>
      rw [relay_cons_cons, Session.value_bind, Option.bind_eq_some_iff] at h
      obtain ⟨⟨m₁, reply⟩, -, h⟩ := h
      cases reply with
      | error cause =>
        cases h
        rfl
      | ok output =>
        dsimp only at h
        rw [Session.value_bind, Option.bind_eq_some_iff] at h
        obtain ⟨⟨rest₁, result₁⟩, relayed, h⟩ := h
        cases h
        simp [ih relayed]

theorem length_of_value_pass {p : Pipeline}
    (h : (p.pass batch).value limit = some (p₁, result)) :
    p₁.stages.length = p.stages.length := by
  rw [pass, Session.value_bind, Option.bind_eq_some_iff] at h
  obtain ⟨⟨m₁, reply⟩, -, h⟩ := h
  cases reply with
  | error cause =>
    cases h
    rfl
  | ok output =>
    dsimp only at h
    rw [Session.value_bind, Option.bind_eq_some_iff] at h
    obtain ⟨⟨rest₁, result₁⟩, relayed, h⟩ := h
    cases h
    simp [stages, length_of_value_relay relayed]

/-- What the first of two pipelines makes of a batch decides what becomes of it in both together. A
pass that fails in the first, or comes out of it without output, leaves the second alone. Otherwise
the second has its say, with its stages counted from the first of all. -/
theorem value_pass_append (p q : Pipeline) (batch : List Word) (limit : Nat) :
    (∀ p₁ e, (p.pass batch).value limit = some (p₁, .error e) →
      p₁.stages.length = p.stages.length ∧
        ((p ++ q).pass batch).value limit = some (p₁ ++ q, .error e)) ∧
    (∀ p₁, (p.pass batch).value limit = some (p₁, .ok []) →
      p₁.stages.length = p.stages.length ∧
        ((p ++ q).pass batch).value limit =
          some (p₁ ++ q, .error (.noOutput (p.stages.length - 1)))) ∧
    ∀ p₁ output, output ≠ [] → (p.pass batch).value limit = some (p₁, .ok output) →
      p₁.stages.length = p.stages.length ∧
        ((p ++ q).pass batch).value limit =
          ((q.pass output).value limit).map fun (q₁, result) =>
            (p₁ ++ q₁, result.mapError (.behind p.stages.length)) := by
  rw [pass_append, Session.value_bind]
  refine ⟨?_, ?_, ?_⟩
  · intro p₁ e h
    exact ⟨length_of_value_pass h, by rw [h]; rfl⟩
  · intro p₁ h
    exact ⟨length_of_value_pass h, by rw [h]; rfl⟩
  · intro p₁ output filled h
    obtain ⟨w, output, rfl⟩ := List.exists_cons_of_ne_nil filled
    refine ⟨length_of_value_pass h, ?_⟩
    rw [h, Option.bind_some]
    dsimp only
    rw [Session.value_bind]
    cases (q.pass (w :: output)).value limit <;> rfl

theorem value_pass_append_silent :
    let echo := Machine.ofProgram [3, 10, 4, 10, 99]
    let p : Pipeline := ⟨echo, []⟩
    let q : Pipeline := ⟨.ofProgram [3, 10, 99], [echo]⟩
    ∃ p₁ q₁, (p.pass [5]).value 9 = some (p₁, .ok [5]) ∧
      (q.pass [5]).value 9 = some (q₁, .error (.noOutput 0)) ∧ q₁.rest = [echo] ∧
      ((p ++ q).pass [5]).value 9 = some (p₁ ++ q₁, .error (.noOutput 1)) ∧
      ((p ++ q).pass []).value 9 = some (p ++ q, .error (.machine (.input .emptyBatch))) := by
  intro echo p q
  obtain ⟨p₁, first⟩ : ∃ p₁, (p.pass [5]).value 9 = some (p₁, .ok [5]) := by
    subst p echo
    exact ⟨_, rfl⟩
  obtain ⟨q₁, second, rest⟩ : ∃ q₁, (q.pass [5]).value 9 = some (q₁, .error (.noOutput 0)) ∧
      q₁.rest = [echo] := by
    subst q echo
    exact ⟨_, rfl, rfl⟩
  obtain ⟨-, -, both⟩ := value_pass_append p q [5] 9
  obtain ⟨failed, -, -⟩ := value_pass_append p q [] 9
  have together := (both p₁ [5] (by simp) first).2
  rw [second] at together
  exact ⟨p₁, q₁, first, second, rest, together, (failed p _ rfl).2⟩

end Pipeline

end WordMachine
