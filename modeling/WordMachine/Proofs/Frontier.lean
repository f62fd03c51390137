import WordMachine.Proofs.FloorPlan

namespace WordMachine

structure Frontier where
  distances : Std.TreeMap Position Nat
  queue : List Position

def Frontier.start (p : Position) : Frontier := ⟨Std.TreeMap.insert ∅ p 0, [p]⟩

namespace FloorPlan

def visit? (plan : FloorPlan) (f : Frontier) : Option Frontier := do
  let p ← f.queue.head?
  let d ← f.distances[p]?
  let (distances, found) := plan.nextRing (d + 1) f.distances [p]
  return ⟨distances, f.queue.tail ++ found.reverse⟩

def visits? (plan : FloorPlan) : Nat → Frontier → Option Frontier
  | 0, f => some f
  | count + 1, f => (plan.visit? f).bind (plan.visits? count)

variable {plan : FloorPlan} {start p q : Position} {distances : Std.TreeMap Position Nat}

theorem visit?_cons (value : distances[p]? = some d) :
    plan.visit? ⟨distances, p :: rest⟩ =
      some ⟨(plan.nextRing (d + 1) distances [p]).1,
        rest ++ (plan.nextRing (d + 1) distances [p]).2.reverse⟩ := by
  simp [visit?, value]

def unreached (plan : FloorPlan) (distances : Std.TreeMap Position Nat) : Finset Position :=
  plan.cells.filter (· ∉ distances)

theorem card_unreached_le (plan : FloorPlan) (distances : Std.TreeMap Position Nat) :
    (plan.unreached distances).card ≤ plan.floor.size := by
  rw [← card_cells]
  exact Finset.card_filter_le _ _

theorem unreached_insert (floor : p ∈ plan.floor) (new : p ∉ distances) (d : Nat) :
    (plan.unreached (distances.insert p d)).card + 1 = (plan.unreached distances).card := by
  have erased : plan.unreached (distances.insert p d) = (plan.unreached distances).erase p := by
    ext q
    simp only [unreached, Finset.mem_filter, Finset.mem_erase, Std.TreeMap.mem_insert,
      Std.compare_eq_iff_eq, not_or]
    tauto
  rw [erased]
  exact Finset.card_erase_add_one (by simp [unreached, floor, new])

theorem length_foldl_reach (plan : FloorPlan) (n : Nat) (visited : List Position)
    (reached : Std.TreeMap Position Nat × List Position) :
    (visited.foldl (plan.reach n) reached).2.length +
        (plan.unreached (visited.foldl (plan.reach n) reached).1).card =
      reached.2.length + (plan.unreached reached.1).card := by
  induction visited generalizing reached with
  | nil => rfl
  | cons cell visited ih =>
    rw [List.foldl_cons, ih]
    by_cases new : cell ∈ plan.floor ∧ cell ∉ reached.1
    · have less := unreached_insert new.1 new.2 n
      rw [reach_of_new new.1 new.2]
      dsimp only
      rw [List.length_cons]
      omega
    · rw [reach_of_not_new new]

theorem length_nextRing (plan : FloorPlan) (n : Nat) (distances : Std.TreeMap Position Nat)
    (ring : List Position) :
    (plan.nextRing n distances ring).2.length +
      (plan.unreached (plan.nextRing n distances ring).1).card =
      (plan.unreached distances).card := by
  rw [nextRing, length_foldl_reach]
  simp

theorem nextRing_singleton (plan : FloorPlan) (n : Nat) (distances : Std.TreeMap Position Nat)
    (p : Position) :
    (∀ q d, (plan.nextRing n distances [p]).1[q]? = some d ↔ distances[q]? = some d ∨
      d = n ∧ q ∈ plan.floor ∧ q ∉ distances ∧ ∃ e : Direction, e.neighbour p = q) ∧
    ∀ q, q ∈ (plan.nextRing n distances [p]).2 ↔
      q ∈ plan.floor ∧ q ∉ distances ∧ ∃ e : Direction, e.neighbour p = q := by
  have visited : ∀ q, q ∈ [p].flatMap (fun p => Direction.all.map (·.neighbour p)) ↔
      ∃ e : Direction, e.neighbour p = q := by
    simp [Direction.mem_all]
  have reached := plan.foldl_reach n ([p].flatMap fun p => Direction.all.map (·.neighbour p))
    (distances, [])
  simp only [visited, List.not_mem_nil, false_or] at reached
  exact reached

/-- The queue holds the cells at distance `n` whose neighbours may have no distance, and behind them
the cells at distance `n + 1` that have been found so far. -/
structure Layers (plan : FloorPlan) (start : Position) (n : Nat) (near far : List Position)
    (distances : Std.TreeMap Position Nat) : Prop where
  sound : ∀ p d, distances[p]? = some d → d ≤ n + 1 ∧ plan.IsDistance start p d
  complete : ∀ p d, d ≤ n → plan.IsDistance start p d → distances[p]? = some d
  inner : ∀ p ∈ near, plan.IsDistance start p n
  outer : ∀ p, p ∈ far ↔ distances[p]? = some (n + 1)
  closed : ∀ p, plan.IsDistance start p n → p ∈ near ∨
    ∀ e : Direction, e.neighbour p ∈ plan.floor → e.neighbour p ∈ distances

namespace Layers

variable {near far : List Position}

theorem first (plan : FloorPlan) (p : Position) :
    plan.Layers p 0 [p] [] (Std.TreeMap.insert ∅ p 0) where
  sound q d h := by
    obtain ⟨rfl, here⟩ := ((Measured.first plan p).distance q d).1 h |>.imp Nat.le_zero.1 id
    exact ⟨Nat.zero_le _, here⟩
  complete q d le here := ((Measured.first plan p).distance q d).2 ⟨le, here⟩
  inner q member := ((Measured.first plan p).ring q).1 member
  outer q := by simp [(Measured.first plan p).distance]
  closed q here := .inl (((Measured.first plan p).ring q).2 here)

theorem isDistance_succ (h : plan.Layers start n near far distances)
    (here : plan.IsDistance start p n) (e : Direction) (floor : e.neighbour p ∈ plan.floor)
    (new : e.neighbour p ∉ distances) : plan.IsDistance start (e.neighbour p) (n + 1) := by
  refine IsDistance.succ_iff.2 ⟨floor, fun k le nearer => new ?_, p, here, e, rfl⟩
  rw [Std.TreeMap.mem_iff_isSome_getElem?, h.complete _ k le nearer]
  rfl

theorem visit (h : plan.Layers start n (p :: near) far distances) :
    plan.Layers start n near (far ++ (plan.nextRing (n + 1) distances [p]).2.reverse)
      (plan.nextRing (n + 1) distances [p]).1 := by
  have here := h.inner p List.mem_cons_self
  obtain ⟨reached, found⟩ := plan.nextRing_singleton (n + 1) distances p
  constructor
  · intro q d value
    rcases (reached q d).1 value with value | ⟨rfl, floor, new, e, rfl⟩
    · exact h.sound q d value
    · exact ⟨Nat.le_refl _, h.isDistance_succ here e floor new⟩
  · intro q d le near
    exact (reached q d).2 (.inl (h.complete q d le near))
  · intro q member
    exact h.inner q (List.mem_cons_of_mem _ member)
  · intro q
    rw [List.mem_append, List.mem_reverse, h.outer, found, reached]
    simp
  · intro q near
    have kept (q : Position) (member : q ∈ distances) :
        q ∈ (plan.nextRing (n + 1) distances [p]).1 := by
      rw [Std.TreeMap.mem_iff_isSome_getElem?, Option.isSome_iff_exists] at member ⊢
      exact member.imp fun d value => (reached q d).2 (.inl value)
    rcases h.closed q near with member | closed
    · rcases List.mem_cons.1 member with rfl | member
      · refine .inr fun e floor => ?_
        by_cases new : e.neighbour q ∈ distances
        · exact kept _ new
        · rw [Std.TreeMap.mem_iff_isSome_getElem?, Option.isSome_iff_exists]
          exact ⟨n + 1, (reached _ _).2 (.inr ⟨rfl, floor, new, e, rfl⟩)⟩
      · exact .inl member
    · exact .inr fun e floor => kept _ (closed e floor)

theorem advance (h : plan.Layers start n [] far distances) :
    plan.Layers start (n + 1) far [] distances := by
  have found : ∀ q, plan.IsDistance start q (n + 1) → distances[q]? = some (n + 1) := by
    intro q far
    obtain ⟨floor, -, p, here, e, rfl⟩ := IsDistance.succ_iff.1 far
    rcases h.closed p here with member | closed
    · cases member
    · have member := closed e floor
      rw [Std.TreeMap.mem_iff_isSome_getElem?, Option.isSome_iff_exists] at member
      obtain ⟨d, value⟩ := member
      rw [value, (h.sound _ d value).2.unique far]
  constructor
  · intro q d value
    obtain ⟨le, near⟩ := h.sound q d value
    exact ⟨Nat.le_succ_of_le le, near⟩
  · intro q d le near
    rcases Nat.le_or_eq_of_le_succ le with le | rfl
    · exact h.complete q d le near
    · exact found q near
  · intro q member
    exact (h.sound q _ ((h.outer q).1 member)).2
  · intro q
    simp only [List.not_mem_nil, false_iff]
    intro value
    have := (h.sound q _ value).1
    omega
  · intro q far
    exact .inl ((h.outer q).2 (found q far))

theorem getElem?_iff (h : plan.Layers start n [] [] distances) :
    distances[p]? = some d ↔ plan.IsDistance start p d := by
  refine ⟨fun value => (h.sound p d value).2, fun near => ?_⟩
  by_cases le : d ≤ n
  · exact h.complete p d le near
  · obtain ⟨q, next⟩ := near.exists_of_le (Nat.lt_of_not_le le)
    have value := h.advance.complete q (n + 1) (Nat.le_refl _) next
    cases (h.outer q).2 value

end Layers

def Spreads (plan : FloorPlan) (start : Position) (f : Frontier) : Prop :=
  ∃ n near far, f.queue = near ++ far ∧ plan.Layers start n near far f.distances

def pending (plan : FloorPlan) (f : Frontier) : Nat :=
  f.queue.length + (plan.unreached f.distances).card

namespace Spreads

theorem exists_cons (h : plan.Spreads start ⟨distances, p :: rest⟩) :
    ∃ n near far, rest = near ++ far ∧ plan.Layers start n (p :: near) far distances := by
  obtain ⟨n, near, far, queue, layers⟩ := h
  cases near with
  | nil =>
    obtain rfl : p :: rest = far := queue
    exact ⟨n + 1, rest, [], (List.append_nil rest).symm, layers.advance⟩
  | cons cell near =>
    obtain ⟨rfl, rfl⟩ := List.cons.inj queue
    exact ⟨n, near, far, rfl, layers⟩

theorem visit (h : plan.Spreads start ⟨distances, p :: rest⟩) :
    ∃ f, plan.visit? ⟨distances, p :: rest⟩ = some f ∧ plan.Spreads start f ∧
      plan.pending f + 1 = plan.pending ⟨distances, p :: rest⟩ := by
  obtain ⟨n, near, far, rfl, layers⟩ := h.exists_cons
  have value : distances[p]? = some n :=
    layers.complete p n (Nat.le_refl n) (layers.inner p List.mem_cons_self)
  have count := plan.length_nextRing (n + 1) distances [p]
  refine ⟨_, visit?_cons value, ?_, ?_⟩
  · exact ⟨n, near, _, List.append_assoc .., layers.visit⟩
  · simp only [pending, List.length_append, List.length_reverse, List.length_cons]
    omega

theorem exists_visits (h : plan.Spreads start f) :
    ∃ count ≤ plan.pending f, ∃ distances, plan.visits? count f = some ⟨distances, []⟩ ∧
      plan.Spreads start ⟨distances, []⟩ := by
  induction size : plan.pending f generalizing f with
  | zero =>
    obtain ⟨distances, queue⟩ := f
    obtain ⟨empty, -⟩ := Nat.add_eq_zero_iff.1 size
    obtain rfl := List.length_eq_zero_iff.1 empty
    exact ⟨0, Nat.le_refl 0, distances, rfl, h⟩
  | succ size ih =>
    obtain ⟨distances, queue⟩ := f
    cases queue with
    | nil => exact ⟨0, Nat.zero_le _, distances, rfl, h⟩
    | cons p rest =>
      obtain ⟨f₁, visited, spreads, less⟩ := h.visit
      obtain ⟨count, le, distances₁, visits, done⟩ := ih spreads (by omega)
      refine ⟨count + 1, Nat.succ_le_succ le, distances₁, ?_, done⟩
      rw [visits?, visited]
      exact visits

end Spreads

theorem exists_visits_start (plan : FloorPlan) (start : Position) :
    ∃ count ≤ plan.floor.size + 1, ∃ distances,
      plan.visits? count (.start start) = some ⟨distances, []⟩ ∧
        ∀ p d, distances[p]? = some d ↔ plan.IsDistance start p d := by
  have spreads : plan.Spreads start (.start start) :=
    ⟨0, [start], [], rfl, Layers.first plan start⟩
  obtain ⟨count, le, distances, visits, n, near, far, queue, layers⟩ := spreads.exists_visits
  obtain ⟨rfl, rfl⟩ := List.append_eq_nil_iff.1 queue.symm
  refine ⟨count, ?_, distances, visits, fun p d => layers.getElem?_iff⟩
  have := plan.card_unreached_le (Frontier.start start).distances
  simp only [pending, Frontier.start, List.length_singleton] at le this
  omega

theorem getElem?_distancesFrom_eq_none_iff :
    (plan.distancesFrom start)[p]? = none ↔ ∀ n, ¬plan.Path start n p := by
  rw [Option.eq_none_iff_forall_ne_some]
  simp only [ne_eq, getElem?_distancesFrom]
  constructor
  · intro absent n path
    obtain ⟨k, -, near⟩ := path.exists_isDistance
    exact absent k near
  · intro blocked d near
    exact blocked d near.1

theorem oxygenSteps?_eq_none_iff :
    plan.oxygenSteps? = none ↔ ∀ p, plan.oxygen = some p → ∀ n, ¬plan.Path .origin n p := by
  simp only [oxygenSteps?, Option.bind_eq_bind, Option.bind_eq_none_iff,
    getElem?_distancesFrom_eq_none_iff]

/-- The distances from a cell, be it floor or not, are the lengths of shortest paths over the floor,
and a cell without a path has none. A search from cell to cell finds the same distances. It is
through after at most one visit for each cell of the floor and one more, and never comes upon a cell
without a distance. The way to the oxygen is a shortest path from the origin, and the time to fill
the floor is the greatest distance from the oxygen. -/
theorem distances_are_shortest_paths (plan : FloorPlan) :
    (∀ start,
      (∃ count ≤ plan.floor.size + 1, ∃ distances,
        plan.visits? count (.start start) = some ⟨distances, []⟩ ∧
          ∀ p : Position, distances[p]? = (plan.distancesFrom start)[p]?) ∧
      (∀ (p : Position) d, (plan.distancesFrom start)[p]? = some d ↔
        p = start ∧ d = 0 ∨ p ≠ start ∧ plan.IsDistance start p d) ∧
      ∀ p : Position, (plan.distancesFrom start)[p]? = none ↔ ∀ n, ¬plan.Path start n p) ∧
    (∀ n, plan.oxygenSteps? = some n ↔
      ∃ p, plan.oxygen = some p ∧ plan.IsDistance .origin p n) ∧
    (plan.oxygenSteps? = none ↔
      plan.oxygen = none ∨ ∃ p, plan.oxygen = some p ∧ ∀ n, ¬plan.Path .origin n p) ∧
    (∀ n, plan.fillTime? = some n ↔
      ∃ p, plan.oxygen = some p ∧ (∃ q, plan.IsDistance p q n) ∧
        ∀ k q, plan.IsDistance p q k → k ≤ n) ∧
    (plan.fillTime? = none ↔ plan.oxygen = none) := by
  refine ⟨fun start => ⟨?_, ?_, fun p => getElem?_distancesFrom_eq_none_iff⟩,
    fun n => oxygenSteps?_eq_some_iff, ?_, fun n => fillTime?_eq_some_iff, ?_⟩
  · obtain ⟨count, le, distances, visits, value⟩ := plan.exists_visits_start start
    refine ⟨count, le, distances, visits, fun p => Option.ext fun d => ?_⟩
    rw [value, getElem?_distancesFrom]
  · intro p d
    rw [getElem?_distancesFrom]
    by_cases same : p = start
    · subst same
      have here : plan.IsDistance p p 0 := IsDistance.zero_iff.2 rfl
      simp only [true_and, ne_eq, not_true_eq_false, false_and, or_false]
      constructor
      · intro near
        exact near.unique here
      · rintro rfl
        exact here
    · simp [same]
  · rw [oxygenSteps?_eq_none_iff]
    cases plan.oxygen <;> simp
  · rw [← Option.isNone_iff_eq_none, ← Option.isNone_iff_eq_none, ← Option.not_isSome,
      ← Option.not_isSome, isSome_fillTime?]

end FloorPlan

end WordMachine
