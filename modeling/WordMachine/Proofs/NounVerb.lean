import Mathlib.Data.Prod.Lex
import WordMachine.NounVerb
import WordMachine.Proofs.Session

namespace WordMachine

namespace NounVerb

def prepared (program : List Word) (pair : Word × Word) : Machine :=
  { Machine.ofProgram program with
    memory := ((Memory.ofList program).set 1 pair.1).set 2 pair.2 }

theorem machine_eq (program : List Word) (noun verb : Word) :
    machine program noun verb = .ok (prepared program (noun, verb)) := rfl

def Hits (program : List Word) (target : Word) (pair : Word × Word) : Prop :=
  ∃ m output, (prepared program pair).Calls ⟨m, .ok output⟩ ∧ m.state = .halted ∧
    m.read 0 = .ok target

def Precedes : Word × Word → Word × Word → Prop := Prod.Lex (· < ·) (· < ·)

abbrev InRange (pair : Word × Word) : Prop :=
  (0 ≤ pair.1 ∧ pair.1 < 100) ∧ 0 ≤ pair.2 ∧ pair.2 < 100

variable {program : List Word} {target : Word} {pair : Word × Word}

theorem hits_iff (calls : (prepared program pair).Calls ⟨m, result⟩) :
    Hits program target pair ↔
      (∃ output, result = .ok output) ∧ m.isHalted ∧ m.read 0 = .ok target := by
  constructor
  · rintro ⟨m₁, output, calls₁, halted, reads⟩
    cases calls.unique calls₁
    exact ⟨⟨output, rfl⟩, by simp [Machine.isHalted, halted], reads⟩
  · rintro ⟨⟨output, rfl⟩, halted, reads⟩
    exact ⟨m, output, calls, by simpa [Machine.isHalted] using halted, reads⟩

theorem ends_succeeds (target : Word) (calls : (prepared program pair).Calls r) :
    ∃ hit, (succeeds program target pair.1 pair.2).Ends (.ok hit) ∧
      (hit = true ↔ Hits program target pair) := by
  obtain ⟨m, result⟩ := r
  rw [hits_iff calls]
  unfold succeeds
  rw [machine_eq]
  cases result with
  | error cause =>
    exact ⟨false, (Session.ends_call calls).bind ((Session.ends_log _).bind (Session.ends_pure _)),
      by simp⟩
  | ok output =>
    cases halted : m.isHalted with
    | false =>
      refine ⟨false, (Session.ends_call calls).bind ?_, by simp⟩
      rw [if_neg (by simp [halted])]
      exact (Session.ends_log _).bind (Session.ends_pure _)
    | true =>
      refine ⟨m.memory.get 0 == target, (Session.ends_call calls).bind ?_, ?_⟩
      · rw [if_pos halted]
        exact Session.ends_pure _
      · have reads : m.read 0 = .ok (m.memory.get 0) := rfl
        simp [reads]

theorem Precedes.asymm {pair₁ : Word × Word} (h : Precedes pair pair₁) : ¬Precedes pair₁ pair := by
  simp only [Precedes, Prod.lex_def, Int64.lt_iff_toInt_lt, ← Int64.toInt_inj] at h ⊢
  omega

theorem precedes_trichotomy (pair pair₁ : Word × Word) :
    Precedes pair pair₁ ∨ pair = pair₁ ∨ Precedes pair₁ pair := by
  simp only [Precedes, Prod.lex_def, Prod.ext_iff, Int64.lt_iff_toInt_lt, ← Int64.toInt_inj]
  omega

theorem ends_searchIn {rest : List (Word × Word)} (sorted : rest.Pairwise Precedes)
    (returns : ∀ pair ∈ rest,
      (∀ earlier ∈ rest, Precedes earlier pair → ¬Hits program target earlier) →
        ∃ r, (prepared program pair).Calls r) :
    (∃ pair ∈ rest, (searchIn program target rest).Ends (.ok (some pair)) ∧
      Hits program target pair ∧
        ∀ earlier ∈ rest, Precedes earlier pair → ¬Hits program target earlier) ∨
    (searchIn program target rest).Ends (.ok none) ∧ ∀ pair ∈ rest, ¬Hits program target pair := by
  induction rest with
  | nil => exact .inr ⟨Session.ends_pure _, by simp⟩
  | cons pair rest ih =>
    obtain ⟨later, sorted⟩ := List.pairwise_cons.1 sorted
    have first : ∀ earlier ∈ pair :: rest, ¬Precedes earlier pair := by
      intro earlier member precedes
      rcases List.mem_cons.1 member with rfl | member
      · exact precedes.asymm precedes
      · exact precedes.asymm (later earlier member)
    obtain ⟨r, calls⟩ := returns pair List.mem_cons_self fun earlier member precedes =>
      absurd precedes (first earlier member)
    obtain ⟨hit, ends, iff⟩ := ends_succeeds target calls
    cases hit with
    | true =>
      refine .inl ⟨pair, List.mem_cons_self, ?_, iff.1 rfl, fun earlier member precedes =>
        absurd precedes (first earlier member)⟩
      exact ends.bind ((Session.ends_log _).bind (Session.ends_pure _))
    | false =>
      have missed : ¬Hits program target pair := fun hits => by simpa using iff.2 hits
      have returns₁ : ∀ other ∈ rest,
          (∀ earlier ∈ rest, Precedes earlier other → ¬Hits program target earlier) →
            ∃ r, (prepared program other).Calls r := by
        intro other member none_earlier
        refine returns other (List.mem_cons_of_mem _ member) ?_
        rw [List.forall_mem_cons]
        exact ⟨fun _ => missed, none_earlier⟩
      rcases ih sorted returns₁ with ⟨other, member, ends₁, hits, none_earlier⟩ | ⟨ends₁, none_hit⟩
      · refine .inl ⟨other, List.mem_cons_of_mem _ member, ends.bind ends₁, hits, ?_⟩
        rw [List.forall_mem_cons]
        exact ⟨fun _ => missed, none_earlier⟩
      · exact .inr ⟨ends.bind ends₁, List.forall_mem_cons.2 ⟨missed, none_hit⟩⟩

theorem toInt_ofNat (h : n < 100) : (Int64.ofNat n).toInt = n :=
  Int64.toInt_ofNat_of_lt (by omega)

theorem exists_ofNat_eq_iff {w : Word} :
    (∃ n < 100, Int64.ofNat n = w) ↔ 0 ≤ w ∧ w < 100 := by
  rw [Int64.le_iff_toInt_le, Int64.lt_iff_toInt_lt]
  change _ ↔ 0 ≤ w.toInt ∧ w.toInt < 100
  constructor
  · rintro ⟨n, lt, rfl⟩
    rw [toInt_ofNat lt]
    omega
  · rintro ⟨le, lt⟩
    refine ⟨w.toInt.toNat, by omega, ?_⟩
    rw [← Int64.toInt_inj, toInt_ofNat (by omega)]
    omega

theorem ofNat_lt_ofNat (lt : n < k) (below : k < 100) : Int64.ofNat n < Int64.ofNat k := by
  rw [Int64.lt_iff_toInt_lt, toInt_ofNat (by omega), toInt_ofNat below]
  omega

theorem mem_pairs_iff : pair ∈ pairs ↔ InRange pair := by
  obtain ⟨noun, verb⟩ := pair
  simp only [pairs, List.mem_flatMap, List.mem_map, List.mem_range, Prod.mk.injEq, InRange,
    ← exists_ofNat_eq_iff]
  constructor
  · rintro ⟨n, lt, k, lt₁, same, same₁⟩
    exact ⟨⟨n, lt, same⟩, k, lt₁, same₁⟩
  · rintro ⟨⟨n, lt, same⟩, k, lt₁, same₁⟩
    exact ⟨n, lt, k, lt₁, same, same₁⟩

theorem pairwise_pairs : pairs.Pairwise Precedes := by
  rw [pairs, List.pairwise_flatMap]
  constructor
  · intro noun _
    rw [List.pairwise_map]
    refine List.pairwise_lt_range.imp_of_mem fun _ below lt => ?_
    exact .right _ (ofNat_lt_ofNat lt (List.mem_range.1 below))
  · refine List.pairwise_lt_range.imp_of_mem fun _ below lt => ?_
    intro pair member pair₁ member₁
    obtain ⟨verb, -, rfl⟩ := List.mem_map.1 member
    obtain ⟨verb₁, -, rfl⟩ := List.mem_map.1 member₁
    exact .left _ _ (ofNat_lt_ofNat lt (List.mem_range.1 below))

/-- The search never fails. It ends with the first pair in range that hits the target, and with
nothing just if there is none. Only the runs before that pair and the one on it need to end. -/
theorem search_finds_first_hit (program : List Word) (target : Word)
    (returns : ∀ pair, InRange pair →
      (∀ earlier, InRange earlier → Precedes earlier pair → ¬Hits program target earlier) →
        ∃ r, (prepared program pair).Calls r) :
    ∃ found, (∀ result, (search program target).Ends result ↔ result = .ok found) ∧
      (∀ pair, found = some pair ↔ InRange pair ∧ Hits program target pair ∧
        ∀ earlier, InRange earlier → Precedes earlier pair → ¬Hits program target earlier) ∧
      (found = none ↔ ∀ pair, InRange pair → ¬Hits program target pair) := by
  have ends := ends_searchIn pairwise_pairs (by simpa only [mem_pairs_iff] using returns)
  simp only [mem_pairs_iff] at ends
  rcases ends with ⟨pair, inside, ends, hits, first⟩ | ⟨ends, missed⟩
  · refine ⟨some pair, fun result => ⟨fun ends₁ => ends₁.unique ends, ?_⟩, fun other => ⟨?_, ?_⟩,
      ?_⟩
    · rintro rfl
      exact ends
    · rintro ⟨⟩
      exact ⟨inside, hits, first⟩
    · rintro ⟨inside₁, hits₁, first₁⟩
      rcases precedes_trichotomy pair other with precedes | rfl | precedes
      · exact absurd hits (first₁ pair inside precedes)
      · rfl
      · exact absurd hits₁ (first other inside₁ precedes)
    · simp only [reduceCtorEq, false_iff, not_forall]
      exact ⟨pair, inside, not_not.2 hits⟩
  · refine ⟨none, fun result => ⟨fun ends₁ => ends₁.unique ends, ?_⟩, fun other => ⟨?_, ?_⟩, ?_⟩
    · rintro rfl
      exact ends
    · rintro ⟨⟩
    · rintro ⟨inside, hits, -⟩
      exact absurd hits (missed other inside)
    · exact ⟨fun _ => missed, fun _ => rfl⟩

theorem exists_calls_of_value
    (h : (succeeds program target pair.1 pair.2).value limit = some result) :
    ∃ r, (prepared program pair).Calls r := by
  unfold succeeds at h
  rw [machine_eq, Session.value_bind, Option.bind_eq_some_iff] at h
  obtain ⟨r, call, -⟩ := h
  rw [Session.value_call] at call
  exact ⟨r, limit, call⟩

/-- The program executes the sum of both words. The verb 0 is no instruction, 1 and 2 end with other
words, 3 waits for input, 4 to 6 go astray, and 7 ends with the target. -/
theorem search_finds_first_hit_executed :
    let program : List Word := [1101, 0, 0, 4, 0, 0, 0, 0, 99]
    (search program 0).Ends (.ok (some (0, 7))) ∧ Hits program 0 (0, 7) ∧
      ∀ pair, InRange pair → Precedes pair (0, 7) → ¬Hits program 0 pair := by
  intro program
  have runs : ∀ verb : Fin 8,
      (succeeds program 0 0 (Int64.ofNat verb)).value 9 = some (.ok (verb = 7)) := by
    decide +kernel
  have returns (verb : Fin 8) : ∃ r, (prepared program (0, Int64.ofNat verb)).Calls r :=
    exists_calls_of_value (runs verb)
  have hits_iff_seven (verb : Fin 8) : Hits program 0 (0, Int64.ofNat verb) ↔ verb = 7 := by
    obtain ⟨r, calls⟩ := returns verb
    obtain ⟨hit, ends, iff⟩ := ends_succeeds 0 calls
    have same := Except.ok.inj (ends.unique ⟨9, runs verb⟩)
    rw [← iff, same, decide_eq_true_iff]
  have early (pair : Word × Word) (inside : InRange pair) (before : ¬Precedes (0, 7) pair) :
      ∃ verb : Fin 8, pair = (0, Int64.ofNat verb) := by
    obtain ⟨noun, verb⟩ := pair
    obtain ⟨⟨n, below, rfl⟩, k, below₁, rfl⟩ :=
      inside.imp exists_ofNat_eq_iff.2 exists_ofNat_eq_iff.2
    have least : n = 0 := by
      by_contra other
      exact before (.left _ _ (ofNat_lt_ofNat (n := 0) (by omega) below))
    subst least
    have le : k < 8 := by
      by_contra other
      exact before (.right _ (ofNat_lt_ofNat (n := 7) (by omega) below₁))
    exact ⟨⟨k, le⟩, rfl⟩
  obtain ⟨found, only, iff, -⟩ := search_finds_first_hit program 0 (by
    intro pair inside first
    obtain ⟨verb, rfl⟩ := early pair inside fun after =>
      first (0, 7) (by decide) after ((hits_iff_seven 7).2 rfl)
    exact returns verb)
  have found_seven : found = some (0, 7) := by
    refine (iff _).2 ⟨by decide, (hits_iff_seven 7).2 rfl, ?_⟩
    intro pair inside precedes hits
    obtain ⟨verb, rfl⟩ := early pair inside precedes.asymm
    obtain rfl := (hits_iff_seven verb).1 hits
    exact precedes.asymm precedes
  obtain ⟨-, hits, first⟩ := (iff _).1 found_seven
  exact ⟨(only _).2 (by rw [found_seven]), hits, first⟩

end NounVerb

end WordMachine
