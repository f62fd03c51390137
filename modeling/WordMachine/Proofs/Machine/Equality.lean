import Mathlib.Data.List.Forall2
import WordMachine.Proofs.Machine.Refinement
import WordMachine.Proofs.Memory

namespace WordMachine

theorem Fault.eq_of_ideal?_eq {cause cause₁ : Fault} (h : cause.ideal? = cause₁.ideal?)
    (known : cause.ideal? ≠ none) : cause = cause₁ := by
  cases cause with
  | invalidAddress => cases cause₁ <;> simp_all [ideal?, Int64.toInt_inj]
  | invalidMode => cases cause₁ <;> simp_all [ideal?, Int64.toInt_inj]
  | unknownOpcode => cases cause₁ <;> simp_all [ideal?, Int64.toInt_inj]
  | ranOffImage => cases cause₁ <;> simp_all [ideal?]
  | input => exact absurd rfl known
  | overflow => exact absurd rfl known

inductive Step.Alike : Step → Step → Prop
  | next {a b : Machine} {emitted : Option Word} :
    a.ideal = b.ideal → Alike (.next a emitted) (.next b emitted)
  | waiting {a b : Machine} : a.ideal = b.ideal → Alike (.waiting a) (.waiting b)
  | halted {a b : Machine} : a.ideal = b.ideal → Alike (.halted a) (.halted b)
  | fault {a b : Machine} {cause : Fault} :
    a.ideal = b.ideal → Alike (.fault cause a) (.fault cause b)

theorem Step.alike_of_ideal?_eq {first second : Step} (h : first.ideal? = second.ideal?)
    (known : first.ideal? ≠ none) : Alike first second := by
  cases first with
  | next a emitted =>
    cases second with
    | next b emitted₁ =>
      have words : Function.Injective (Option.map Int64.toInt) :=
        Option.map_injective fun _ _ => Int64.toInt_inj.1
      simp only [ideal?, Option.some.injEq, IdealMachine.Step.next.injEq, words.eq_iff] at h
      obtain ⟨same, rfl⟩ := h
      exact .next same
    | waiting b | halted b => cases h
    | fault cause b =>
      obtain ⟨_, -, step⟩ := Option.map_eq_some_iff.1 h.symm
      cases step
  | waiting a =>
    cases second with
    | waiting b => exact .waiting (by simpa [ideal?] using h)
    | next b | halted b => cases h
    | fault cause b =>
      obtain ⟨_, -, step⟩ := Option.map_eq_some_iff.1 h.symm
      cases step
  | halted a =>
    cases second with
    | halted b => exact .halted (by simpa [ideal?] using h)
    | next b | waiting b => cases h
    | fault cause b =>
      obtain ⟨_, -, step⟩ := Option.map_eq_some_iff.1 h.symm
      cases step
  | fault cause a =>
    cases reason : cause.ideal? with
    | none => simp [ideal?, reason] at known
    | some cause₁ =>
      cases second with
      | next b | waiting b | halted b => simp [ideal?, reason] at h
      | fault other b =>
        simp only [ideal?, reason, Option.map_some] at h
        obtain ⟨cause₂, reason₁, step⟩ := Option.map_eq_some_iff.1 h.symm
        obtain ⟨rfl, same⟩ := IdealMachine.Step.fault.inj step
        obtain rfl := Fault.eq_of_ideal?_eq (reason.trans reason₁.symm) (by simp [reason])
        exact .fault same.symm

namespace Machine

theorem beq_iff_ideal_eq {a b : Machine} : (a == b) = true ↔ a.ideal = b.ideal := by
  have words : Function.Injective Int64.toInt := fun _ _ => Int64.toInt_inj.1
  have queue : a.inbox = b.inbox ↔
      a.inbox.waiting.map Int64.toInt = b.inbox.waiting.map Int64.toInt := by
    rw [(List.map_injective_iff.2 words).eq_iff]
    cases a.inbox
    cases b.inbox
    simp
  have cells : (∀ i, a.memory.get i = b.memory.get i) ↔
      (fun i => (a.memory.get i).toInt) = fun i => (b.memory.get i).toInt := by
    simp only [funext_iff, words.eq_iff]
  change same a b = true ↔ _
  simp only [same, Bool.and_eq_true, beq_iff_eq, decide_eq_true_eq, Memory.beq_iff_get_eq, ideal,
    IdealMachine.mk.injEq, words.eq_iff, queue, cells]
  constructor
  · rintro ⟨⟨⟨⟨ip, base⟩, size, cells⟩, queue⟩, state⟩
    exact ⟨ip, base, cells, size, queue, state⟩
  · rintro ⟨ip, base, cells, size, queue, state⟩
    exact ⟨⟨⟨⟨ip, base⟩, size, cells⟩, queue⟩, state⟩

theorem exists_alike_step {a b : Machine} (h : a.ideal = b.ideal) (step : a.step = first) :
    ∃ second, b.step = second ∧ Step.Alike first second := by
  refine ⟨b.step, rfl, ?_⟩
  subst step
  have ip : a.ip = b.ip := congrArg IdealMachine.ip h
  rcases a.exceeds_or_ideal?_step with ⟨exceeds, step⟩ | ⟨fits, step⟩
  · rcases b.exceeds_or_ideal?_step with ⟨-, step₁⟩ | ⟨fits, -⟩
    · rw [step, step₁, ip]
      exact .fault h
    · exact absurd (h ▸ exceeds) fits
  · rcases b.exceeds_or_ideal?_step with ⟨exceeds, -⟩ | ⟨-, step₁⟩
    · exact absurd (h ▸ exceeds) fits
    · exact Step.alike_of_ideal?_eq (by rw [step, step₁, h]) (by simp [step])

theorem Runs.alike {a b : Machine} (runs : a.Runs r) (h : a.ideal = b.ideal) :
    ∃ m, b.Runs ⟨m, r.result⟩ ∧ r.machine.ideal = m.ideal := by
  induction runs generalizing b with
  | waiting step =>
    obtain ⟨other, step₁, alike⟩ := exists_alike_step h step
    cases alike with
    | waiting same => exact ⟨_, .waiting step₁, same⟩
  | halted step =>
    obtain ⟨other, step₁, alike⟩ := exists_alike_step h step
    cases alike with
    | halted same => exact ⟨_, .halted step₁, same⟩
  | fault step =>
    obtain ⟨other, step₁, alike⟩ := exists_alike_step h step
    cases alike with
    | fault same => exact ⟨_, .fault step₁, same⟩
  | next step _ ih =>
    obtain ⟨other, step₁, alike⟩ := exists_alike_step h step
    cases alike with
    | next same =>
      obtain ⟨m, runs, same₁⟩ := ih same
      exact ⟨m, .next step₁ runs, same₁⟩

theorem Calls.alike {a b : Machine} (calls : a.Calls r) (h : a.ideal = b.ideal) :
    ∃ m, b.Calls ⟨m, r.result⟩ ∧ r.machine.ideal = m.ideal := by
  have state : a.state = b.state := congrArg IdealMachine.state h
  by_cases halted : a.state = .halted
  · obtain rfl := (calls_iff_of_halted halted).1 calls
    exact ⟨b, (calls_iff_of_halted (state ▸ halted)).2 rfl, h⟩
  · rw [calls_iff_runs halted] at calls
    simp only [calls_iff_runs (state ▸ halted)]
    apply calls.alike
    change { a.ideal with state := .active } = { b.ideal with state := .active }
    rw [h]

end Machine

inductive Operation
  | feed (batch : List Word)
  | write (address value : Word)
  | read (address : Word)
  | call

inductive Answer
  | done (result : Except Fault Unit)
  | word (result : Except Fault Word)
  | output (result : Except Fault (List Word))

namespace Machine

inductive Performs : Machine → Operation → Answer → Machine → Prop
  | feed {m : Machine} {batch : List Word} :
    Performs m (.feed batch) (.done ((m.feed batch).map fun _ => ()))
      ((m.feed batch).toOption.getD m)
  | write {m : Machine} {address value : Word} :
    Performs m (.write address value) (.done ((m.write address value).map fun _ => ()))
      ((m.write address value).toOption.getD m)
  | read {m : Machine} {address : Word} :
    Performs m (.read address) (.word (m.read address)) m
  | call {m : Machine} {r : Reply} : m.Calls r → Performs m .call (.output r.result) r.machine

inductive Serves : Machine → List Operation → List (Answer × Machine) → Prop
  | nil {m : Machine} : Serves m [] []
  | cons {m m₁ : Machine} {operation : Operation} {operations : List Operation} {answer : Answer}
    {rest : List (Answer × Machine)} :
    m.Performs operation answer m₁ → Serves m₁ operations rest →
      Serves m (operation :: operations) ((answer, m₁) :: rest)

theorem Performs.unique {m : Machine} (h : m.Performs operation answer m₁)
    (h₁ : m.Performs operation answer₁ m₂) : answer = answer₁ ∧ m₁ = m₂ := by
  cases h with
  | call calls =>
    cases h₁ with
    | call calls₁ =>
      cases calls.unique calls₁
      exact ⟨rfl, rfl⟩
  | feed =>
    cases h₁
    exact ⟨rfl, rfl⟩
  | write =>
    cases h₁
    exact ⟨rfl, rfl⟩
  | read =>
    cases h₁
    exact ⟨rfl, rfl⟩

theorem Serves.unique {m : Machine} (h : m.Serves operations replies)
    (h₁ : m.Serves operations replies₁) : replies = replies₁ := by
  induction h generalizing replies₁ with
  | nil =>
    cases h₁
    rfl
  | cons performs _ ih =>
    cases h₁ with
    | cons performs₁ rest =>
      obtain ⟨rfl, rfl⟩ := performs.unique performs₁
      rw [ih rest]

theorem read_eq_of_ideal_eq {a b : Machine} (h : a.ideal = b.ideal) (address : Word) :
    a.read address = b.read address := by
  have cells : ∀ i, a.memory.get i = b.memory.get i := by
    intro i
    rw [← Int64.toInt_inj]
    exact congrFun (congrArg IdealMachine.cell h) i
  unfold read Memory.read
  simp only [cells]

theorem feed_map_eq (a b : Machine) (batch : List Word) :
    ((a.feed batch).map fun _ => ()) = (b.feed batch).map fun _ => () := by
  cases batch with
  | nil => rfl
  | cons w batch => rfl

theorem write_map_eq (a b : Machine) (address value : Word) :
    ((a.write address value).map fun _ => ()) = (b.write address value).map fun _ => () := by
  unfold write Memory.write
  cases Word.index? address with
  | none => rfl
  | some i => rfl

theorem Performs.alike {a b a₁ : Machine} (h : a.Performs operation answer a₁)
    (same : a.ideal = b.ideal) : ∃ b₁, b.Performs operation answer b₁ ∧ a₁.ideal = b₁.ideal := by
  cases h with
  | feed =>
    rw [feed_map_eq a b]
    exact ⟨_, .feed, by rw [ideal_feed, ideal_feed, same]⟩
  | write =>
    rw [write_map_eq a b]
    exact ⟨_, .write, by rw [ideal_write, ideal_write, same]⟩
  | read =>
    rw [read_eq_of_ideal_eq same]
    exact ⟨b, .read, same⟩
  | call calls =>
    obtain ⟨m, calls₁, same₁⟩ := calls.alike same
    exact ⟨m, .call calls₁, same₁⟩

theorem Serves.alike {a b : Machine} (h : a.Serves operations replies) (same : a.ideal = b.ideal) :
    ∃ replies₁, b.Serves operations replies₁ ∧ replies.map Prod.fst = replies₁.map Prod.fst ∧
      List.Forall₂ (fun r r₁ => (r.2 == r₁.2) = true) replies replies₁ := by
  induction h generalizing b with
  | nil => exact ⟨[], .nil, rfl, .nil⟩
  | @cons a a₁ operation operations answer rest performs _ ih =>
    obtain ⟨b₁, performs₁, same₁⟩ := performs.alike same
    obtain ⟨rest₁, serves, answers, machines⟩ := ih same₁
    refine ⟨_, .cons performs₁ serves, ?_, .cons (beq_iff_ideal_eq.2 same₁) machines⟩
    rw [List.map_cons, List.map_cons, answers]

/-- Operations whose calls come to an end on a machine come to an end on every equal one. They give
the same answers there and no others, and leave equal machines after each of them. -/
theorem serves_of_beq {a b : Machine} {operations : List Operation}
    {replies : List (Answer × Machine)} (h : (a == b) = true)
    (serves : a.Serves operations replies) :
    ∃ replies₁, (∀ other, b.Serves operations other ↔ other = replies₁) ∧
      replies.map Prod.fst = replies₁.map Prod.fst ∧
      List.Forall₂ (fun r r₁ => (r.2 == r₁.2) = true) replies replies₁ := by
  obtain ⟨replies₁, serves₁, alike⟩ := serves.alike (beq_iff_ideal_eq.1 h)
  refine ⟨replies₁, fun other => ⟨fun serves₂ => serves₂.unique serves₁, ?_⟩, alike⟩
  rintro rfl
  exact serves₁

theorem serves_of_beq_stored_zero :
    let a := ofProgram [4, 100, 3, 100, 1105, 1, -1]
    let b : Machine := { a with memory := a.memory.set 100 0 }
    let operations : List Operation :=
      [.call, .feed [], .feed [7], .call, .read 100, .write (-3) 1]
    (a == b) = true ∧ a.memory.overflowSize ≠ b.memory.overflowSize ∧
      ∃ replies, b.Serves operations replies ∧
        replies.map Prod.fst =
          [.output (.ok [0]), .done (.error (.input .emptyBatch)), .done (.ok ()),
            .output (.error (.invalidAddress (-1))), .word (.ok 7),
            .done (.error (.invalidAddress (-3)))] := by
  intro a b operations
  have same : (a == b) = true := by decide +kernel
  have calls : a.Calls ⟨{ a with ip := 2, state := .waiting }, .ok [0]⟩ := ⟨9, by subst a; rfl⟩
  have calls₁ : Machine.Calls { a with ip := 2, state := .waiting, inbox := ⟨[7]⟩ }
      ⟨{ a with ip := 4, memory := a.memory.set 100 7 }, .error (.invalidAddress (-1))⟩ :=
    ⟨9, by subst a; rfl⟩
  have serves : a.Serves operations _ :=
    .cons (.call calls) (.cons .feed (.cons .feed (.cons (.call calls₁) (.cons .read
      (.cons .write .nil)))))
  obtain ⟨replies, serves₁, answers, -⟩ := serves_of_beq same serves
  refine ⟨same, by decide +kernel, replies, (serves₁ replies).2 rfl, ?_⟩
  rw [← answers]
  rfl

end Machine

end WordMachine
