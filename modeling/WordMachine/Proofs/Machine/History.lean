import WordMachine.Proofs.Machine.Resumption

namespace WordMachine

def Consistent (first second : List α) : Prop := ∃ whole, first <+: whole ∧ second <+: whole

namespace Consistent

theorem symm {first second : List α} (h : Consistent first second) : Consistent second first := by
  obtain ⟨whole, left, right⟩ := h
  exact ⟨whole, right, left⟩

theorem nil_left (second : List α) : Consistent [] second :=
  ⟨second, List.nil_prefix, List.prefix_refl second⟩

theorem of_prefix {first second first₁ second₁ : List α} (h : Consistent first second)
    (left : first₁ <+: first) (right : second₁ <+: second) : Consistent first₁ second₁ := by
  obtain ⟨whole, left₁, right₁⟩ := h
  exact ⟨whole, left.trans left₁, right.trans right₁⟩

theorem append_left {first second : List α} (before : List α) (h : Consistent first second) :
    Consistent (before ++ first) (before ++ second) := by
  obtain ⟨whole, left, right⟩ := h
  exact ⟨before ++ whole, (List.prefix_append_right_inj before).2 left,
    (List.prefix_append_right_inj before).2 right⟩

theorem prefix_or_prefix {first second : List α} (h : Consistent first second) :
    first <+: second ∨ second <+: first := by
  obtain ⟨whole, left, right⟩ := h
  exact List.prefix_or_prefix_of_prefix left right

end Consistent

namespace Machine

/-- The machine that `m₀` has become by taking some words and putting out others. -/
inductive Served (m₀ : Machine) : List Word → List Word → Machine → Prop
  | start : Served m₀ [] [] m₀
  | feed {taken output : List Word} {m : Machine} (words : List Word) :
    Served m₀ taken output m → Served m₀ (taken ++ words) output (m.enqueue words)
  | call {taken output more : List Word} {m m₁ : Machine} :
    Served m₀ taken output m → m.Calls ⟨m₁, .ok more⟩ → Served m₀ taken (output ++ more) m₁

namespace Served

theorem calls {m₀ m : Machine} (h : m₀.Served taken output m) (words : List Word)
    (next : (m.enqueue words).Calls r) :
    (m₀.enqueue (taken ++ words)).Calls (r.after output) := by
  induction h generalizing words r with
  | start => simpa using next
  | feed batch _ ih =>
    rw [← enqueue_append] at next
    simpa using ih (batch ++ words) next
  | call _ last ih =>
    simpa using ih words ((last.enqueue_iff words).2 ⟨_, next, rfl⟩)

theorem last_call {m₀ m : Machine} (h : m₀.Served taken output m) :
    output = [] ∨ ∃ before m₁, before <+: taken ∧ (m₀.enqueue before).Calls ⟨m₁, .ok output⟩ := by
  induction h with
  | start => exact .inl rfl
  | feed words _ ih =>
    rcases ih with rfl | ⟨before, m₁, earlier, calls⟩
    · exact .inl rfl
    · exact .inr ⟨before, m₁, earlier.trans (List.prefix_append _ _), calls⟩
  | @call taken output more m m₁ served last _ =>
    have all := served.calls [] (by simpa using last)
    exact .inr ⟨taken, m₁, List.prefix_refl _, by simpa using all⟩

end Served

theorem Calls.output_prefix {m : Machine} (h : m.Calls ⟨m₁, .ok output⟩)
    (h₁ : (m.enqueue words).Calls ⟨m₂, .ok output₁⟩) : output <+: output₁ := by
  obtain ⟨⟨m₃, result⟩, -, reply⟩ := (h.enqueue_iff words).1 h₁
  cases result with
  | error cause => simp at reply
  | ok rest =>
    simp only [Reply.after_ok, Reply.mk.injEq, Except.ok.injEq] at reply
    exact ⟨rest, reply.2.symm⟩

theorem Calls.output_consistent {m : Machine} (h : (m.enqueue first).Calls ⟨m₁, .ok output⟩)
    (h₁ : (m.enqueue second).Calls ⟨m₂, .ok output₁⟩) (taken : Consistent first second) :
    Consistent output output₁ := by
  rcases taken.prefix_or_prefix with ⟨rest, rfl⟩ | ⟨rest, rfl⟩
  · rw [enqueue_append] at h₁
    exact ⟨output₁, h.output_prefix h₁, List.prefix_refl _⟩
  · rw [enqueue_append] at h
    exact ⟨output, List.prefix_refl _, h₁.output_prefix h⟩

namespace Served

theorem output_consistent {m₀ m m₁ : Machine} (h : m₀.Served taken output m)
    (h₁ : m₀.Served taken₁ output₁ m₁) (taken_consistent : Consistent taken taken₁) :
    Consistent output output₁ := by
  rcases h.last_call with rfl | ⟨before, m₂, earlier, calls⟩
  · exact .nil_left _
  rcases h₁.last_call with rfl | ⟨before₁, m₃, earlier₁, calls₁⟩
  · exact .symm (.nil_left _)
  exact calls.output_consistent calls₁ (taken_consistent.of_prefix earlier earlier₁)

theorem eq_of_prefix_of_halted {m₀ m m₁ : Machine} (h : m₀.Served taken output m)
    (h₁ : m₀.Served (taken ++ words) output₁ m₁) (halted : m.isHalted) (halted₁ : m₁.isHalted) :
    output₁ = output ∧ m₁ = m.enqueue words := by
  have stays : (m.enqueue words).Calls ⟨m.enqueue words, .ok []⟩ :=
    (calls_iff_of_halted (by simpa [isHalted] using halted)).2 rfl
  have stays₁ : (m₁.enqueue []).Calls ⟨m₁.enqueue [], .ok []⟩ :=
    (calls_iff_of_halted (by simpa [isHalted] using halted₁)).2 rfl
  have reply := (h₁.calls [] stays₁).unique (by simpa using h.calls words stays)
  simpa [and_comm] using reply

theorem eq_of_halted {m₀ m m₁ : Machine} (h : m₀.Served taken output m)
    (h₁ : m₀.Served taken₁ output₁ m₁) (taken_consistent : Consistent taken taken₁)
    (halted : m.isHalted) (halted₁ : m₁.isHalted) :
    output = output₁ ∧ m.memory = m₁.memory ∧ m.ip = m₁.ip ∧ m.relativeBase = m₁.relativeBase := by
  rcases taken_consistent.prefix_or_prefix with ⟨rest, rfl⟩ | ⟨rest, rfl⟩
  · obtain ⟨rfl, rfl⟩ := h.eq_of_prefix_of_halted h₁ halted halted₁
    exact ⟨rfl, rfl, rfl, rfl⟩
  · obtain ⟨rfl, rfl⟩ := h₁.eq_of_prefix_of_halted h halted₁ halted
    exact ⟨rfl, rfl, rfl, rfl⟩

end Served

end Machine

end WordMachine
