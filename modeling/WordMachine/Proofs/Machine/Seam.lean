import WordMachine.Proofs.Machine.Equality

/-!
The seam of the memory. A machine takes no notice of where its image ends: if cells from beyond the
image move into it, a host gets the same answers as before, as long as no call runs off the shorter
image.
-/

namespace WordMachine

namespace Memory

/-- The same memory with `count` more cells in the image. Those that have been written come from
beyond it, the others are zero. -/
def extend (m : Memory) (count : Nat) : Memory where
  image := m.image ++ Array.ofFn fun i : Fin count => m.overflow.getD (m.image.size + i) 0
  overflow := m.overflow.filter fun i _ => m.image.size + count ≤ i
  size_le_of_mem := by
    intro i stored
    obtain ⟨_, beyond⟩ := Std.TreeMap.mem_filter.1 stored
    simpa using beyond

theorem imageSize_extend (m : Memory) (count : Nat) :
    (m.extend count).imageSize = m.imageSize + count := by
  simp [extend, imageSize]

theorem get_extend (m : Memory) (count i : Nat) : (m.extend count).get i = m.get i := by
  have size : (m.extend count).image.size = m.image.size + count := m.imageSize_extend count
  by_cases inside : i < m.image.size
  · rw [get_of_lt (by omega), get_of_lt inside]
    simp [extend, inside]
  · by_cases moved : i < m.image.size + count
    · rw [get_of_lt (by omega), get_of_le (by omega)]
      simp [extend, Array.getElem_append, inside, Nat.add_sub_of_le (Nat.le_of_not_lt inside)]
    · rw [get_of_le (by omega), get_of_le (by omega)]
      have kept : m.image.size + count ≤ i := Nat.le_of_not_lt moved
      rw [Std.TreeMap.getD_eq_getD_getElem?, Std.TreeMap.getD_eq_getD_getElem?, extend,
        Std.TreeMap.getElem?_filter']
      simp only [kept, decide_true]
      cases m.overflow[i]? <;> rfl

end Memory

inductive Step.Related (rel : Machine → Machine → Prop) : Step → Step → Prop
  | next {a b : Machine} {emitted : Option Word} :
    rel a b → Related rel (.next a emitted) (.next b emitted)
  | waiting {a b : Machine} : rel a b → Related rel (.waiting a) (.waiting b)
  | halted {a b : Machine} : rel a b → Related rel (.halted a) (.halted b)
  | fault {a b : Machine} {cause : Fault} : rel a b → Related rel (.fault cause a) (.fault cause b)

namespace Machine

def extend (m : Machine) (count : Nat) : Machine := { m with memory := m.memory.extend count }

structure Agrees (a b : Machine) : Prop where
  ip : a.ip = b.ip
  relativeBase : a.relativeBase = b.relativeBase
  inbox : a.inbox = b.inbox
  state : a.state = b.state
  get : ∀ i, a.memory.get i = b.memory.get i

structure Widens (a b : Machine) : Prop extends Agrees a b where
  size : a.memory.imageSize ≤ b.memory.imageSize

theorem widens_extend (m : Machine) (count : Nat) : m.Widens (m.extend count) where
  ip := rfl
  relativeBase := rfl
  inbox := rfl
  state := rfl
  get i := (m.memory.get_extend count i).symm
  size := by simp [extend, Memory.imageSize_extend]

namespace Agrees

variable {a b : Machine}

theorem parameter (h : a.Agrees b) (index : Fin 3) : a.parameter index = b.parameter index := by
  simp only [Machine.parameter, h.ip, h.get]

theorem fitting (h : a.Agrees b) (result : Option Word) : a.fitting result = b.fitting result := by
  simp only [Machine.fitting, h.ip]

theorem address (h : a.Agrees b) (i : Instruction) (index : Fin 3) :
    a.address i index = b.address i index := by
  simp only [Machine.address, h.parameter, h.fitting, h.relativeBase, h.ip]

theorem read (h : a.Agrees b) (address : Word) : a.memory.read address = b.memory.read address := by
  simp only [Memory.read, h.get]

theorem operand (h : a.Agrees b) (i : Instruction) (index : Fin 3) :
    a.operand i index = b.operand i index := by
  simp only [Machine.operand, h.parameter, h.address, h.read]

theorem effect (h : a.Agrees b) (i : Instruction) : a.effect i = b.effect i := by
  simp only [Machine.effect, h.operand, h.address, h.fitting, h.relativeBase]

end Agrees

namespace Widens

variable {a b : Machine}

theorem set (h : a.Widens b) (cell : Nat) (w : Word) :
    Widens { a with memory := a.memory.set cell w } { b with memory := b.memory.set cell w } where
  ip := h.ip
  relativeBase := h.relativeBase
  inbox := h.inbox
  state := h.state
  get i := by simp only [Memory.get_set, h.get]
  size := by simpa [Memory.imageSize] using h.size

theorem fetch (h : a.Widens b) (inside : a.ip < a.memory.imageSize) : a.fetch = b.fetch := by
  have inside₁ : b.ip < b.memory.imageSize := h.ip ▸ Nat.lt_of_lt_of_le inside h.size
  rw [Machine.fetch, if_pos inside, Machine.fetch, if_pos inside₁, h.ip, h.get]

theorem apply (h : a.Widens b) (width : Nat) (e : Effect) :
    Step.Related Widens (a.apply width e) (b.apply width e) := by
  have onwards : a.ip + width = b.ip + width := by rw [h.ip]
  cases e with
  | store address value =>
    simp only [Machine.apply]
    cases Word.index? address with
    | none => exact .fault h
    | some cell => exact .next { h.set cell value with ip := onwards }
  | receive address =>
    simp only [Machine.apply, h.inbox]
    cases b.inbox.pop? with
    | none => exact .waiting { h with inbox := rfl, state := rfl }
    | some popped =>
      cases Word.index? address with
      | none => exact .fault { h with inbox := rfl }
      | some cell => exact .next { h.set cell popped.1 with ip := onwards, inbox := rfl }
  | emit value => exact .next { h with ip := onwards }
  | rebase base => exact .next { h with ip := onwards, relativeBase := rfl }
  | jump target => exact .next { h with ip := rfl }
  | proceed => exact .next { h with ip := onwards }
  | halt => exact .halted { h with state := rfl }

theorem step (h : a.Widens b) (step : a.step = first) :
    (∃ address, first = .fault (.ranOffImage address) a) ∨
      ∃ second, b.step = second ∧ Step.Related Widens first second := by
  subst step
  by_cases inside : a.ip < a.memory.imageSize
  · refine .inr ⟨_, rfl, ?_⟩
    unfold Machine.step
    rw [← h.fetch inside]
    cases a.fetch with
    | error cause => exact .fault h
    | ok i =>
      dsimp only
      rw [← h.effect i]
      cases a.effect i with
      | error cause => exact .fault h
      | ok e => exact h.apply i.width e
  · have fetch : a.fetch = .error (.ranOffImage a.ip) := if_neg inside
    exact .inl ⟨a.ip, by rw [Machine.step, fetch]⟩

theorem runs (h : a.Widens b) (runs : a.Runs r) :
    (∃ address, r.result = .error (.ranOffImage address)) ∨
      ∃ m, b.Runs ⟨m, r.result⟩ ∧ r.machine.Widens m := by
  induction runs generalizing b with
  | waiting step =>
    rcases h.step step with ⟨_, ⟨⟩⟩ | ⟨_, step₁, related⟩
    cases related with
    | waiting h₁ => exact .inr ⟨_, .waiting step₁, h₁⟩
  | halted step =>
    rcases h.step step with ⟨_, ⟨⟩⟩ | ⟨_, step₁, related⟩
    cases related with
    | halted h₁ => exact .inr ⟨_, .halted step₁, h₁⟩
  | fault step =>
    rcases h.step step with ⟨address, ⟨⟩⟩ | ⟨_, step₁, related⟩
    · exact .inl ⟨address, rfl⟩
    · cases related with
      | fault h₁ => exact .inr ⟨_, .fault step₁, h₁⟩
  | next step _ ih =>
    rcases h.step step with ⟨_, ⟨⟩⟩ | ⟨_, step₁, related⟩
    cases related with
    | next h₁ =>
      rcases ih h₁ with ⟨address, off⟩ | ⟨m, runs, h₂⟩
      · exact .inl ⟨address, Reply.result_after_eq_error_iff.2 off⟩
      · exact .inr ⟨m, .next step₁ runs, h₂⟩

theorem exists_runs (h : a.Widens b) (runs : b.Runs r) : ∃ r₁, a.Runs r₁ := by
  induction runs generalizing a with
  | @next b b₁ emitted r step _ ih =>
    rcases a.runs_or_next with runs | ⟨a₁, emitted₁, step₁⟩
    · exact runs
    · rcases h.step step₁ with ⟨_, ⟨⟩⟩ | ⟨_, step₂, related⟩
      cases related with
      | next h₁ =>
        rw [step] at step₂
        cases step₂
        obtain ⟨r₁, runs⟩ := ih h₁
        exact ⟨_, .next step₁ runs⟩
  | waiting step | halted step | fault step =>
    rcases a.runs_or_next with runs | ⟨a₁, emitted, step₁⟩
    · exact runs
    · rcases h.step step₁ with ⟨_, ⟨⟩⟩ | ⟨_, step₂, related⟩
      cases related with
      | next => simp [step] at step₂

theorem activate (h : a.Widens b) :
    Widens { a with state := .active } { b with state := .active } :=
  { h with state := rfl }

theorem calls (h : a.Widens b) (calls : a.Calls r) :
    (∃ address, r.result = .error (.ranOffImage address)) ∨
      ∃ m, b.Calls ⟨m, r.result⟩ ∧ r.machine.Widens m := by
  by_cases halted : a.state = .halted
  · obtain rfl := (calls_iff_of_halted halted).1 calls
    exact .inr ⟨b, (calls_iff_of_halted (h.state ▸ halted)).2 rfl, h⟩
  · rw [calls_iff_runs halted] at calls
    simp only [calls_iff_runs (h.state ▸ halted)]
    exact h.activate.runs calls

theorem exists_calls (h : a.Widens b) (calls : b.Calls r) : ∃ r₁, a.Calls r₁ := by
  by_cases halted : a.state = .halted
  · exact ⟨_, (calls_iff_of_halted halted).2 rfl⟩
  · rw [calls_iff_runs (h.state ▸ halted)] at calls
    simp only [calls_iff_runs halted]
    exact h.activate.exists_runs calls

theorem feed (h : a.Widens b) (batch : List Word) :
    Widens ((a.feed batch).toOption.getD a) ((b.feed batch).toOption.getD b) := by
  cases batch with
  | nil => exact h
  | cons w batch =>
    have queued := congrArg (fun q : Inbox => Inbox.mk (q.waiting ++ w :: batch)) h.inbox
    exact { h with inbox := queued }

theorem write (h : a.Widens b) (address value : Word) :
    Widens ((a.write address value).toOption.getD a)
      ((b.write address value).toOption.getD b) := by
  unfold Machine.write Memory.write
  cases Word.index? address with
  | none => exact h
  | some cell => exact h.set cell value

end Widens

end Machine

def Answer.RanOff (answer : Answer) : Prop :=
  ∃ address, answer = .output (.error (.ranOffImage address))

namespace Machine

namespace Widens

variable {a b : Machine}

theorem performs {a₁ : Machine} (h : a.Widens b) (performs : a.Performs operation answer a₁)
    (onImage : ¬answer.RanOff) : ∃ b₁, b.Performs operation answer b₁ ∧ a₁.Widens b₁ := by
  cases performs with
  | feed =>
    rw [feed_map_eq a b]
    exact ⟨_, .feed, h.feed _⟩
  | write =>
    rw [write_map_eq a b]
    exact ⟨_, .write, h.write _ _⟩
  | @read address =>
    have same : a.read address = b.read address := h.read address
    rw [same]
    exact ⟨b, .read, h⟩
  | call calls =>
    rcases h.calls calls with ⟨address, off⟩ | ⟨m, calls₁, h₁⟩
    · exact absurd ⟨address, congrArg _ off⟩ onImage
    · exact ⟨m, .call calls₁, h₁⟩

theorem exists_performs (h : a.Widens b) (performs : b.Performs operation answer b₁) :
    ∃ answer₁ a₁, a.Performs operation answer₁ a₁ := by
  cases performs with
  | feed => exact ⟨_, _, .feed⟩
  | write => exact ⟨_, _, .write⟩
  | read => exact ⟨_, _, .read⟩
  | call calls =>
    obtain ⟨r, calls₁⟩ := h.exists_calls calls
    exact ⟨_, _, .call calls₁⟩

end Widens

/-- However many of the operations come to an end, none of them runs off the image. -/
def StaysOnImage (m : Machine) (operations : List Operation) : Prop :=
  ∀ done replies, done <+: operations → m.Serves done replies → ∀ reply ∈ replies, ¬reply.1.RanOff

namespace StaysOnImage

theorem first {m : Machine} (h : m.StaysOnImage (operation :: operations))
    (performs : m.Performs operation answer m₁) : ¬answer.RanOff :=
  h [operation] [(answer, m₁)] (by simp) (.cons performs .nil) _
    (List.mem_singleton_self _)

theorem rest {m : Machine} (h : m.StaysOnImage (operation :: operations))
    (performs : m.Performs operation answer m₁) : m₁.StaysOnImage operations := by
  intro done replies before serves reply member
  exact h (operation :: done) _ (by simpa using before) (.cons performs serves) reply
    (List.mem_cons_of_mem _ member)

theorem of_serves {m : Machine} (serves : m.Serves operations replies)
    (h : ∀ reply ∈ replies, ¬reply.1.RanOff) : m.StaysOnImage operations := by
  induction serves with
  | nil =>
    intro done replies before serves
    obtain rfl := List.prefix_nil.1 before
    cases serves
    simp
  | cons performs _ ih =>
    rw [List.forall_mem_cons] at h
    intro done replies before serves
    cases serves with
    | nil => simp
    | cons performs₁ serves =>
      rw [List.cons_prefix_cons] at before
      obtain ⟨rfl, before⟩ := before
      obtain ⟨rfl, rfl⟩ := performs.unique performs₁
      exact List.forall_mem_cons.2 ⟨h.1, ih h.2 _ _ before serves⟩

end StaysOnImage

namespace Widens

variable {a b : Machine}

theorem serves (h : a.Widens b) (onImage : a.StaysOnImage operations)
    (serves : a.Serves operations replies) :
    ∃ replies₁, b.Serves operations replies₁ ∧ replies.map Prod.fst = replies₁.map Prod.fst ∧
      List.Forall₂ (fun r r₁ => r.2.Agrees r₁.2) replies replies₁ := by
  induction serves generalizing b with
  | nil => exact ⟨[], .nil, rfl, .nil⟩
  | cons performs _ ih =>
    obtain ⟨b₁, performs₁, h₁⟩ := h.performs performs (onImage.first performs)
    obtain ⟨rest, serves, answers, machines⟩ := ih h₁ (onImage.rest performs)
    refine ⟨_, .cons performs₁ serves, ?_, .cons h₁.toAgrees machines⟩
    rw [List.map_cons, List.map_cons, answers]

theorem exists_serves (h : a.Widens b) (onImage : a.StaysOnImage operations)
    (serves : b.Serves operations replies) : ∃ replies₁, a.Serves operations replies₁ := by
  induction serves generalizing a with
  | nil => exact ⟨[], .nil⟩
  | cons performs _ ih =>
    obtain ⟨answer, a₁, performs₁⟩ := h.exists_performs performs
    obtain ⟨b₁, performs₂, h₁⟩ := h.performs performs₁ (onImage.first performs₁)
    obtain ⟨rfl, rfl⟩ := performs.unique performs₂
    obtain ⟨rest, serves⟩ := ih h₁ (onImage.rest performs₁)
    exact ⟨_, .cons performs₁ serves⟩

end Widens

/-- No program can find out where the image ends as long as it stays on it. With more cells in its
image a machine serves the same operations as before, with the same answers, and after each of them
it stands where the other one does. -/
theorem serves_extend (m : Machine) (count : Nat) (operations : List Operation)
    (onImage : m.StaysOnImage operations) :
    ((∃ replies, m.Serves operations replies) ↔
      ∃ replies, (m.extend count).Serves operations replies) ∧
    ∀ replies replies₁, m.Serves operations replies →
      (m.extend count).Serves operations replies₁ →
        replies.map Prod.fst = replies₁.map Prod.fst ∧
          List.Forall₂ (fun r r₁ => r.2.Agrees r₁.2) replies replies₁ := by
  have h := m.widens_extend count
  refine ⟨⟨?_, ?_⟩, ?_⟩
  · rintro ⟨replies, serves⟩
    obtain ⟨replies₁, serves₁, -⟩ := h.serves onImage serves
    exact ⟨replies₁, serves₁⟩
  · rintro ⟨replies, serves⟩
    exact h.exists_serves onImage serves
  · intro replies replies₁ serves serves₁
    obtain ⟨replies₂, serves₂, alike⟩ := h.serves onImage serves
    obtain rfl := serves₁.unique serves₂
    exact alike

/-- The jump at the end of the image takes its parameters from beyond it. The first of them moves
into the image, the second does not. -/
theorem serves_extend_parameters :
    let m := ofProgram [3, 7, 3, 8, 4, 7, 1105]
    let ready : Machine :=
      { m with memory := (m.memory.set 7 1).set 8 0, state := .waiting }
    let operations : List Operation := [.feed [5, -1], .call, .write 8 2, .feed [], .call, .read 7]
    m.Handles [.feed [1, 0], .call] ready ∧ ready.StaysOnImage operations ∧
      (ready.extend 1).memory.imageSize = 8 ∧ (ready.extend 1).memory.overflowSize = 1 ∧
      ∃ replies, (ready.extend 1).Serves operations replies ∧
        replies.map Prod.fst =
          [.done (.ok ()), .output (.error (.invalidAddress (-1))), .done (.ok ()),
            .done (.error (.input .emptyBatch)), .output (.ok []), .word (.ok 5)] := by
  intro m ready operations
  let faulty : Machine :=
    { ready with ip := 6, memory := (ready.memory.set 7 5).set 8 (-1), state := .active }
  let mended : Machine := { faulty with memory := faulty.memory.set 8 2 }
  have calls : Machine.Calls { m with inbox := ⟨[1, 0]⟩ } ⟨ready, .ok [1]⟩ :=
    ⟨9, by subst m; rfl⟩
  have calls₁ : Machine.Calls { ready with inbox := ⟨[5, -1]⟩ }
      ⟨faulty, .error (.invalidAddress (-1))⟩ := ⟨9, by subst ready m; rfl⟩
  have calls₂ : mended.Calls ⟨{ mended with ip := 2, state := .waiting }, .ok []⟩ :=
    ⟨9, by subst mended faulty ready m; rfl⟩
  have serves : ready.Serves operations _ :=
    .cons .feed (.cons (.call calls₁) (.cons .write (.cons .feed (.cons (.call calls₂)
      (.cons .read .nil)))))
  have onImage : ready.StaysOnImage operations := .of_serves serves (by simp [Answer.RanOff])
  obtain ⟨⟨served, -⟩, alike⟩ := serves_extend ready 1 operations onImage
  obtain ⟨replies, serves₁⟩ := served ⟨_, serves⟩
  have sizes : (ready.extend 1).memory.imageSize = 8 ∧
      (ready.extend 1).memory.overflowSize = 1 := by
    decide +kernel
  refine ⟨.feed (.call calls .nil), onImage, sizes.1, sizes.2, replies, serves₁, ?_⟩
  rw [← (alike _ _ serves serves₁).1]
  rfl

end Machine

end WordMachine
