import WordMachine.Pipeline.Basic
import WordMachine.Proofs.Machine.History

namespace WordMachine

namespace Pipeline

inductive Relays : List Machine → List Word → List Machine → List Word → Prop
  | nil {batch : List Word} : Relays [] batch [] batch
  | cons {m m₁ m₂ : Machine} {rest rest₁ : List Machine} {batch output result : List Word} :
    m.feed batch = .ok m₁ → m₁.Calls ⟨m₂, .ok output⟩ → Relays rest output rest₁ result →
      Relays (m :: rest) batch (m₂ :: rest₁) result

theorem calls_of_value_stage {m : Machine}
    (h : (stage m batch).value limit = some ⟨m₂, .ok output⟩) :
    ∃ m₁, m.feed batch = .ok m₁ ∧ m₁.Calls ⟨m₂, .ok output⟩ := by
  unfold stage at h
  cases feed : m.feed batch with
  | error cause => simp [feed] at h
  | ok m₁ => exact ⟨m₁, rfl, limit, by simpa [feed] using h⟩

theorem relays_of_value_relay {rest : List Machine}
    (h : (relay place rest batch).value limit = some (rest₁, .ok result)) :
    Relays rest batch rest₁ result := by
  induction rest generalizing place batch rest₁ with
  | nil =>
    simp only [relay_nil, Session.value_pure, Option.some.injEq, Prod.mk.injEq,
      Except.ok.injEq] at h
    obtain ⟨rfl, rfl⟩ := h
    exact .nil
  | cons m rest ih =>
    cases batch with
    | nil => simp at h
    | cons w batch =>
      simp only [relay_cons_cons, Session.value_bind, Option.bind_eq_some_iff] at h
      obtain ⟨⟨m₂, reply⟩, called, h⟩ := h
      cases reply with
      | error cause => simp at h
      | ok output =>
        simp only [Session.value_bind, Option.bind_eq_some_iff, Session.value_pure,
          Option.some.injEq, Prod.mk.injEq] at h
        obtain ⟨⟨rest₂, result₂⟩, relayed, rfl, rfl⟩ := h
        obtain ⟨m₁, feed, calls⟩ := calls_of_value_stage called
        exact .cons feed calls (ih relayed)

theorem relays_of_value_pass {p : Pipeline}
    (h : (p.pass batch).value limit = some (p₁, .ok result)) :
    Relays p.stages batch p₁.stages result := by
  simp only [pass, Session.value_bind, Option.bind_eq_some_iff] at h
  obtain ⟨⟨m₂, reply⟩, called, h⟩ := h
  cases reply with
  | error cause => simp at h
  | ok output =>
    simp only [Session.value_bind, Option.bind_eq_some_iff, Session.value_pure,
      Option.some.injEq, Prod.mk.injEq] at h
    obtain ⟨⟨rest₂, result₂⟩, relayed, rfl, rfl⟩ := h
    obtain ⟨m₁, feed, calls⟩ := calls_of_value_stage called
    exact .cons feed calls (relays_of_value_relay relayed)

/-- What the stages of a pipeline have become. Each has been fed what the one before it has put out,
the first `taken`, and the last has put out `output`. -/
inductive Chain : List Machine → List Word → List Machine → List Word → Prop
  | nil {words : List Word} : Chain [] words [] words
  | cons {m₀ m : Machine} {rest₀ rest : List Machine} {taken output result : List Word} :
    m₀.Served taken output m → Chain rest₀ output rest result →
      Chain (m₀ :: rest₀) taken (m :: rest) result

namespace Chain

theorem start (stages : List Machine) : Chain stages [] stages [] := by
  induction stages with
  | nil => exact .nil
  | cons m rest ih => exact .cons .start ih

theorem relay {stages₀ stages stages₁ : List Machine} (h : Chain stages₀ taken stages output)
    (relays : Relays stages batch stages₁ result) :
    Chain stages₀ (taken ++ batch) stages₁ (output ++ result) := by
  induction h generalizing batch stages₁ result with
  | nil =>
    cases relays
    exact .nil
  | cons served _ ih =>
    cases relays with
    | cons feed calls relays =>
      obtain ⟨-, rfl⟩ := Machine.feed_eq_ok_iff.1 feed
      exact .cons (.call (.feed _ served) calls) (ih relays)

theorem length_eq {stages₀ stages : List Machine} (h : Chain stages₀ taken stages output) :
    stages.length = stages₀.length := by
  induction h with
  | nil => rfl
  | cons _ _ ih => simp [ih]

theorem exists_streams {stages₀ stages : List Machine} (h : Chain stages₀ taken stages output) :
    ∃ stream : Nat → List Word, stream 0 = taken ∧ stream stages₀.length = output ∧
      ∀ (i : Nat) (m₀ m : Machine), stages₀[i]? = some m₀ → stages[i]? = some m →
        m₀.Served (stream i) (stream (i + 1)) m := by
  induction h with
  | @nil words => exact ⟨fun _ => words, rfl, rfl, by simp⟩
  | @cons m₀ m rest₀ rest taken output result served _ ih =>
    obtain ⟨stream, first, last, each⟩ := ih
    refine ⟨fun | 0 => taken | i + 1 => stream i, rfl, last, ?_⟩
    intro i
    cases i with
    | zero => simpa [first] using served
    | succ i => simpa using each i

end Chain

end Pipeline

end WordMachine
