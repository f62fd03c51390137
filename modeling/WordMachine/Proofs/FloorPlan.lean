import Mathlib.Data.Finset.Card
import Mathlib.Order.Interval.Finset.Nat
import WordMachine.FloorPlan

namespace WordMachine

theorem Direction.mem_all (d : Direction) : d ∈ all := by
  cases d <;> decide

theorem Direction.exists_neighbour_eq (d : Direction) (p : Position) :
    ∃ back : Direction, back.neighbour (d.neighbour p) = p := by
  cases d with
  | north => exact ⟨.south, by simp [neighbour]⟩
  | south => exact ⟨.north, by simp [neighbour]⟩
  | west => exact ⟨.east, by simp [neighbour]⟩
  | east => exact ⟨.west, by simp [neighbour]⟩

namespace FloorPlan

/-- A path of `n` steps. All its cells are floor, apart perhaps from the first. -/
inductive Path (plan : FloorPlan) (start : Position) : Nat → Position → Prop
  | start : Path plan start 0 start
  | step {n : Nat} {p : Position} (d : Direction) :
    Path plan start n p → d.neighbour p ∈ plan.floor → Path plan start (n + 1) (d.neighbour p)

variable {plan : FloorPlan} {start p q : Position}

namespace Path

theorem mem_floor (h : plan.Path start n p) (floor : start ∈ plan.floor) : p ∈ plan.floor := by
  cases h with
  | start => exact floor
  | step d _ inside => exact inside

theorem mono {plan₁ : FloorPlan} (h : plan.Path start n p)
    (floor : ∀ q ∈ plan.floor, q ∈ plan₁.floor) : plan₁.Path start n p := by
  induction h with
  | start => exact .start
  | step d _ inside ih => exact .step d ih (floor _ inside)

theorem trans (h : plan.Path start n p) (h₁ : plan.Path p k q) : plan.Path start (n + k) q := by
  induction h₁ with
  | start => exact h
  | step d _ inside ih => exact .step d ih inside

theorem symm (h : plan.Path start n p) (floor : start ∈ plan.floor) : plan.Path p n start := by
  induction h with
  | start => exact .start
  | @step n p d path inside ih =>
    obtain ⟨back, returns⟩ := d.exists_neighbour_eq p
    have inside₁ : back.neighbour (d.neighbour p) ∈ plan.floor := by
      rw [returns]
      exact path.mem_floor floor
    have first : plan.Path (d.neighbour p) 1 (back.neighbour (d.neighbour p)) :=
      .step back .start inside₁
    rw [returns] at first
    rw [Nat.add_comm]
    exact first.trans ih

end Path

def IsDistance (plan : FloorPlan) (start p : Position) (n : Nat) : Prop :=
  plan.Path start n p ∧ ∀ k, plan.Path start k p → n ≤ k

theorem Path.exists_isDistance (h : plan.Path start n p) :
    ∃ k ≤ n, plan.IsDistance start p k := by
  classical
  have some_path : ∃ k, plan.Path start k p := ⟨n, h⟩
  exact ⟨Nat.find some_path, Nat.find_min' some_path h, Nat.find_spec some_path,
    fun _ path => Nat.find_min' some_path path⟩

namespace IsDistance

theorem unique (h : plan.IsDistance start p n) (h₁ : plan.IsDistance start p k) : n = k :=
  Nat.le_antisymm (h.2 k h₁.1) (h₁.2 n h.1)

theorem symm (h : plan.IsDistance start p n) (floor : start ∈ plan.floor) :
    plan.IsDistance p start n :=
  ⟨h.1.symm floor, fun k path => h.2 k (path.symm (h.1.mem_floor floor))⟩

theorem zero_iff : plan.IsDistance start p 0 ↔ p = start := by
  constructor
  · rintro ⟨⟨⟩, -⟩
    rfl
  · rintro rfl
    exact ⟨.start, fun k _ => Nat.zero_le k⟩

theorem succ_iff : plan.IsDistance start p (n + 1) ↔
    p ∈ plan.floor ∧ (∀ k ≤ n, ¬plan.IsDistance start p k) ∧
      ∃ q, plan.IsDistance start q n ∧ ∃ d : Direction, p = d.neighbour q := by
  constructor
  · rintro ⟨path, shortest⟩
    cases path with
    | @step n q d path inside =>
      refine ⟨inside, ?_, q, ⟨path, fun k path₁ => ?_⟩, d, rfl⟩
      · intro k le nearer
        have := shortest k nearer.1
        omega
      · have := shortest (k + 1) (.step d path₁ inside)
        omega
  · rintro ⟨inside, further, q, near, d, rfl⟩
    refine ⟨.step d near.1 inside, fun k path => ?_⟩
    by_contra shorter
    obtain ⟨least, le, nearer⟩ := path.exists_isDistance
    exact further least (by omega) nearer

theorem exists_of_le (h : plan.IsDistance start p n) (le : k ≤ n) :
    ∃ q, plan.IsDistance start q k := by
  induction n generalizing p with
  | zero =>
    obtain rfl := Nat.le_zero.1 le
    exact ⟨p, h⟩
  | succ n ih =>
    obtain ⟨-, -, q, near, -⟩ := succ_iff.1 h
    rcases Nat.le_or_eq_of_le_succ le with le | rfl
    · exact ih near le
    · exact ⟨p, h⟩

end IsDistance

def cells (plan : FloorPlan) : Finset Position := plan.floor.toList.toFinset

@[simp] theorem mem_cells : p ∈ plan.cells ↔ p ∈ plan.floor := by
  simp [cells]

theorem card_cells (plan : FloorPlan) : plan.cells.card = plan.floor.size := by
  rw [cells, List.toFinset_card_of_nodup (Position.nodup_toList plan.floor),
    Std.TreeSet.length_toList]

theorem IsDistance.card_le (h : plan.IsDistance start p n) (lengths : Finset Nat)
    (le : ∀ k ∈ lengths, k ≤ n) (floor : start ∈ plan.floor ∨ 0 ∉ lengths) :
    lengths.card ≤ plan.floor.size := by
  have exists_cell : ∀ k, ∃ q, k ∈ lengths → plan.IsDistance start q k := by
    intro k
    by_cases member : k ∈ lengths
    · obtain ⟨q, near⟩ := h.exists_of_le (le k member)
      exact ⟨q, fun _ => near⟩
    · exact ⟨start, fun member₁ => absurd member₁ member⟩
  choose cell near using exists_cell
  rw [← card_cells]
  apply Finset.card_le_card_of_injOn cell
  · intro k member
    have near := near k member
    rw [Finset.mem_coe, mem_cells]
    cases k with
    | zero =>
      rw [IsDistance.zero_iff.1 near]
      exact floor.resolve_right fun missing => missing member
    | succ k => exact (IsDistance.succ_iff.1 near).1
  · intro k member k₁ member₁ same
    have near₁ := near k₁ member₁
    rw [← same] at near₁
    exact (near k member).unique near₁

theorem IsDistance.le_size (h : plan.IsDistance start p n) : n ≤ plan.floor.size := by
  simpa using h.card_le (Finset.Icc 1 n) (by simp) (.inr (by simp))

theorem IsDistance.lt_size (h : plan.IsDistance start p n) (floor : start ∈ plan.floor) :
    n < plan.floor.size := by
  have le : ∀ k ∈ Finset.range (n + 1), k ≤ n := fun k member =>
    Nat.lt_succ_iff.1 (Finset.mem_range.1 member)
  have := h.card_le (Finset.range (n + 1)) le (.inl floor)
  rwa [Finset.card_range] at this

theorem reach_of_new {reached : Std.TreeMap Position Nat × List Position}
    (floor : p ∈ plan.floor) (new : p ∉ reached.1) :
    plan.reach n reached p = (reached.1.insert p n, p :: reached.2) := by
  simp [reach, floor, new]

theorem reach_of_not_new {reached : Std.TreeMap Position Nat × List Position}
    (h : ¬(p ∈ plan.floor ∧ p ∉ reached.1)) : plan.reach n reached p = reached := by
  rw [reach, if_neg]
  simpa using h

theorem foldl_reach (plan : FloorPlan) (n : Nat) (visited : List Position)
    (reached : Std.TreeMap Position Nat × List Position) :
    (∀ p d, (visited.foldl (plan.reach n) reached).1[p]? = some d ↔
      reached.1[p]? = some d ∨ d = n ∧ p ∈ plan.floor ∧ p ∉ reached.1 ∧ p ∈ visited) ∧
    ∀ p, p ∈ (visited.foldl (plan.reach n) reached).2 ↔
      p ∈ reached.2 ∨ p ∈ plan.floor ∧ p ∉ reached.1 ∧ p ∈ visited := by
  induction visited generalizing reached with
  | nil => simp
  | cons cell visited ih =>
    rw [List.foldl_cons]
    by_cases new : cell ∈ plan.floor ∧ cell ∉ reached.1
    · rw [reach_of_new new.1 new.2]
      obtain ⟨ih, ih₁⟩ := ih (reached.1.insert cell n, cell :: reached.2)
      simp only [ih, ih₁, Std.TreeMap.getElem?_insert, Std.TreeMap.mem_insert,
        Std.compare_eq_iff_eq, List.mem_cons]
      refine ⟨fun p d => ?_, fun p => ?_⟩
      · by_cases same : cell = p
        · subst same
          simp [new, eq_comm]
        · simp [same, Ne.symm same]
      · by_cases same : cell = p
        · subst same
          simp [new]
        · simp [same, Ne.symm same]
    · rw [reach_of_not_new new]
      obtain ⟨ih, ih₁⟩ := ih reached
      have other : ∀ p, p ∈ plan.floor → p ∉ reached.1 → p ≠ cell := by
        rintro p floor unreached rfl
        exact new ⟨floor, unreached⟩
      simp only [ih, ih₁, List.mem_cons]
      refine ⟨fun p d => ?_, fun p => ?_⟩
      · grind
      · grind

structure Measured (plan : FloorPlan) (start : Position) (n : Nat)
    (distances : Std.TreeMap Position Nat) (ring : List Position) : Prop where
  distance : ∀ p d, distances[p]? = some d ↔ d ≤ n ∧ plan.IsDistance start p d
  ring : ∀ p, p ∈ ring ↔ plan.IsDistance start p n

namespace Measured

variable {distances : Std.TreeMap Position Nat} {ring : List Position}

theorem first (plan : FloorPlan) (start : Position) :
    plan.Measured start 0 (Std.TreeMap.insert ∅ start 0) [start] where
  distance := by
    intro p d
    simp only [Std.TreeMap.getElem?_insert, Std.compare_eq_iff_eq, Nat.le_zero]
    constructor
    · intro h
      split at h
      · next same =>
        cases h
        exact ⟨rfl, IsDistance.zero_iff.2 same.symm⟩
      · simp at h
    · rintro ⟨rfl, near⟩
      rw [if_pos (IsDistance.zero_iff.1 near).symm]
  ring := by
    intro p
    rw [IsDistance.zero_iff, List.mem_singleton]

theorem not_mem_iff (h : plan.Measured start n distances ring) :
    p ∉ distances ↔ ∀ k ≤ n, ¬plan.IsDistance start p k := by
  rw [Std.TreeMap.mem_iff_isSome_getElem?, Option.isSome_iff_exists]
  simp [h.distance]

theorem nextRing (h : plan.Measured start n distances ring) :
    plan.Measured start (n + 1) (plan.nextRing (n + 1) distances ring).1
      (plan.nextRing (n + 1) distances ring).2 := by
  have visited : ∀ p, p ∈ ring.flatMap (fun q => Direction.all.map (·.neighbour q)) ↔
      ∃ q, plan.IsDistance start q n ∧ ∃ d : Direction, p = d.neighbour q := by
    intro p
    simp only [List.mem_flatMap, List.mem_map, h.ring]
    constructor
    · rintro ⟨q, near, d, -, rfl⟩
      exact ⟨q, near, d, rfl⟩
    · rintro ⟨q, near, d, rfl⟩
      exact ⟨q, near, d, d.mem_all, rfl⟩
  obtain ⟨reached, next⟩ := plan.foldl_reach (n + 1) (ring.flatMap fun q =>
    Direction.all.map (·.neighbour q)) (distances, [])
  simp only [visited, h.not_mem_iff, h.distance, ← IsDistance.succ_iff] at reached next
  constructor
  · intro p d
    rw [FloorPlan.nextRing, reached, Nat.le_succ_iff]
    constructor
    · rintro (⟨le, near⟩ | ⟨rfl, near⟩)
      · exact ⟨.inl le, near⟩
      · exact ⟨.inr rfl, near⟩
    · rintro ⟨le | rfl, near⟩
      · exact .inl ⟨le, near⟩
      · exact .inr ⟨rfl, near⟩
  · intro p
    rw [FloorPlan.nextRing, next]
    simp

theorem le_of_nil (h : plan.Measured start n distances []) (near : plan.IsDistance start p d) :
    d ≤ n := by
  by_contra further
  obtain ⟨q, near₁⟩ := near.exists_of_le (Nat.le_of_not_le further)
  have := (h.ring q).2 near₁
  cases this

theorem spread (h : plan.Measured start n distances ring) (enough : plan.floor.size < n + rings)
    (full : ring ≠ []) (p : Position) (d : Nat) :
    (plan.spread rings n distances ring)[p]? = some d ↔ plan.IsDistance start p d := by
  induction rings generalizing n distances ring with
  | zero =>
    obtain ⟨q, member⟩ := List.exists_mem_of_ne_nil ring full
    have := ((h.ring q).1 member).le_size
    omega
  | succ rings ih =>
    have next := h.nextRing
    rw [FloorPlan.spread]
    generalize plan.nextRing (n + 1) distances ring = reached at next ⊢
    obtain ⟨distances₁, ring₁⟩ := reached
    cases ring₁ with
    | nil =>
      rw [next.distance]
      exact ⟨And.right, fun near => ⟨next.le_of_nil near, near⟩⟩
    | cons cell ring₁ => exact ih next (by omega) (by simp)

end Measured

theorem getElem?_distancesFrom (plan : FloorPlan) (start p : Position) (d : Nat) :
    (plan.distancesFrom start)[p]? = some d ↔ plan.IsDistance start p d :=
  (Measured.first plan start).spread (by omega) (by simp) p d

theorem mem_values_iff {distances : Std.TreeMap Position Nat} :
    d ∈ distances.values ↔ ∃ p : Position, distances[p]? = some d := by
  have values : distances.values = distances.toList.map Prod.snd := by
    simp only [Std.TreeMap.values, Std.TreeMap.toList, Std.DTreeMap.values,
      Std.DTreeMap.Const.toList, Std.DTreeMap.Internal.Impl.values_eq_map_snd,
      Std.DTreeMap.Internal.Impl.Const.toList_eq_toListModel_map, List.map_map]
    rfl
  simp [values, Std.TreeMap.mem_toList_iff_getElem?_eq_some]

theorem oxygenSteps?_eq_some_iff :
    plan.oxygenSteps? = some n ↔
      ∃ p, plan.oxygen = some p ∧ plan.IsDistance .origin p n := by
  simp [oxygenSteps?, Option.bind_eq_some_iff, getElem?_distancesFrom]

theorem fillTime?_eq_some_iff :
    plan.fillTime? = some n ↔
      ∃ p, plan.oxygen = some p ∧ (∃ q, plan.IsDistance p q n) ∧
        ∀ k q, plan.IsDistance p q k → k ≤ n := by
  simp [fillTime?, Option.bind_eq_some_iff, List.max?_eq_some_iff, mem_values_iff,
    getElem?_distancesFrom]

theorem isSome_fillTime? (plan : FloorPlan) : plan.fillTime?.isSome = plan.oxygen.isSome := by
  unfold fillTime?
  cases plan.oxygen with
  | none => rfl
  | some p =>
    -- The oxygen system itself is at distance zero.
    have here : 0 ∈ (plan.distancesFrom p).values := by
      rw [mem_values_iff]
      exact ⟨p, (plan.getElem?_distancesFrom p p 0).2 (IsDistance.zero_iff.2 rfl)⟩
    simp [List.isSome_max?_of_mem here]

end FloorPlan

end WordMachine
