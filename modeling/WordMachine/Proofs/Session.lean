import WordMachine.Proofs.Machine.Run
import WordMachine.Session

namespace WordMachine

namespace Session

theorem value_of_le {s : Session α} (h : s.value fuel = some a) (le : fuel ≤ fuel₁) :
    s.value fuel₁ = some a := by
  induction s with
  | done b => exact h
  | exhausted => cases h
  | request m next ih =>
    simp only [value_request, Option.bind_eq_some_iff] at h ⊢
    obtain ⟨reply, call, h⟩ := h
    exact ⟨reply, Machine.call_of_le call le, ih reply h⟩
  | note e next ih => exact ih h

def Ends (s : Session α) (a : α) : Prop := ∃ fuel, s.value fuel = some a

theorem ends_pure (a : α) : (pure a : Session α).Ends a := ⟨0, rfl⟩

theorem ends_log (e : Event) : (log e).Ends () := ⟨0, rfl⟩

theorem ends_call {m : Machine} (h : m.Calls r) : (call m).Ends r := by
  obtain ⟨fuel, h⟩ := h
  exact ⟨fuel, by simpa using h⟩

theorem Ends.bind {s : Session α} {f : α → Session β} (h : s.Ends a) (next : (f a).Ends b) :
    (s >>= f).Ends b := by
  obtain ⟨fuel, h⟩ := h
  obtain ⟨fuel₁, next⟩ := next
  refine ⟨max fuel fuel₁, ?_⟩
  rw [value_bind, value_of_le h (Nat.le_max_left fuel fuel₁)]
  exact value_of_le next (Nat.le_max_right fuel fuel₁)

theorem Ends.unique {s : Session α} (h : s.Ends a) (h₁ : s.Ends b) : a = b := by
  obtain ⟨fuel, h⟩ := h
  obtain ⟨fuel₁, h₁⟩ := h₁
  have left := value_of_le h (Nat.le_max_left fuel fuel₁)
  have right := value_of_le h₁ (Nat.le_max_right fuel fuel₁)
  rw [left] at right
  exact Option.some.inj right

theorem Ends.unique_of_bounds {s : Nat → Session α}
    (grows : ∀ {rounds more fuel a}, (s rounds).value fuel = some a → rounds ≤ more →
      (s more).value fuel = some a)
    (h : (s rounds).Ends a) (h₁ : (s rounds₁).Ends b) : a = b := by
  obtain ⟨fuel, h⟩ := h
  obtain ⟨fuel₁, h₁⟩ := h₁
  have left := grows h (Nat.le_max_left rounds rounds₁)
  have right := grows h₁ (Nat.le_max_right rounds rounds₁)
  exact Ends.unique ⟨fuel, left⟩ ⟨fuel₁, right⟩

def Ensures (s : Session α) (property : α → Prop) : Prop :=
  ∀ fuel a, s.value fuel = some a → property a

namespace Ensures

theorem of_ends {s : Session α} (h : s.Ensures property) (ends : s.Ends a) : property a := by
  obtain ⟨fuel, ends⟩ := ends
  exact h fuel a ends

theorem pure {property : α → Prop} (h : property a) : (pure a : Session α).Ensures property := by
  rintro fuel _ ⟨⟩
  exact h

theorem exhausted (property : α → Prop) : (exhausted : Session α).Ensures property := by
  rintro fuel _ ⟨⟩

theorem bind {s : Session α} {f : α → Session β} (h : s.Ensures property)
    (next : ∀ a, property a → (f a).Ensures property₁) : (s >>= f).Ensures property₁ := by
  intro fuel b value
  rw [value_bind, Option.bind_eq_some_iff] at value
  obtain ⟨a, value, value₁⟩ := value
  exact next a (h fuel a value) fuel b value₁

theorem log_bind {e : Event} {f : Unit → Session β} (h : (f ()).Ensures property) :
    (log e >>= f).Ensures property := h

end Ensures

def called (fuel : Nat) : Session α → List Machine
  | .done _ => []
  | .exhausted => []
  | .request m next =>
    m :: match m.call fuel with
      | none => []
      | some reply => (next reply).called fuel
  | .note _ next => next.called fuel

@[simp] theorem called_pure (fuel : Nat) (a : α) : (pure a : Session α).called fuel = [] := rfl

@[simp] theorem called_call (fuel : Nat) (m : Machine) : (call m).called fuel = [m] := by
  unfold call called
  cases m.call fuel <;> rfl

theorem called_bind {s : Session α} (h : s.value fuel = some a) (f : α → Session β) :
    (s >>= f).called fuel = s.called fuel ++ (f a).called fuel := by
  change (s.bind f).called fuel = _
  induction s with
  | done b =>
    cases h
    rfl
  | exhausted => cases h
  | request m next ih =>
    rw [value_request, Option.bind_eq_some_iff] at h
    obtain ⟨reply, call, h⟩ := h
    simp only [bind, called, call, List.cons_append, ih reply h]
  | note e next ih => exact ih h

def replies (fuel : Nat) (s : Session α) : List Reply := (s.called fuel).filterMap (·.call fuel)

@[simp] theorem replies_pure (fuel : Nat) (a : α) : (pure a : Session α).replies fuel = [] := rfl

@[simp] theorem replies_log_bind (fuel : Nat) (e : Event) (f : Unit → Session β) :
    (log e >>= f).replies fuel = (f ()).replies fuel := rfl

theorem replies_call_bind {m : Machine} (h : m.call fuel = some r) (f : Reply → Session β) :
    (call m >>= f).replies fuel = r :: (f r).replies fuel := by
  have value : (call m).value fuel = some r := by simpa using h
  simp [replies, called_bind value, h]

end Session

end WordMachine
