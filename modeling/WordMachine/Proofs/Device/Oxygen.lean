import WordMachine.Proofs.Device.Exploration

namespace WordMachine

namespace Exploration

/-- The queue goes through the floor in layers. The depth of a cell is the number of moves after
which its droid has arrived there. -/
structure Layered (m₀ : Machine) (depth : Position → Nat) (e : Exploration) : Prop where
  depth_origin : depth .origin = 0
  path : ∀ p ∈ e.plan.floor, e.plan.Path .origin (depth p) p
  arrives : ∀ cell ∈ e.queue,
    ∃ route, Droid.Arrives m₀ route cell.1 cell.2 ∧ route.length = depth cell.1
  oxygen : ∀ p, e.plan.oxygen = some p →
    ∃ route m, Droid.Arrives m₀ route p m ∧ route.length = depth p ∧
      route.getLast?.map Prod.snd = some 2
  ordered : e.queue.Pairwise fun cell cell₁ => depth cell.1 ≤ depth cell₁.1
  span : ∀ cell ∈ e.queue.head?, ∀ p ∈ e.plan.floor, depth p ≤ depth cell.1 + 1
  closed : ∀ p ∈ e.plan.floor, (∃ m, (p, m) ∈ e.queue) ∨
    ∀ d : Direction, d.neighbour p ∈ e.plan.floor → depth (d.neighbour p) ≤ depth p + 1

namespace Layered

variable {m₀ m m₁ : Machine} {depth : Position → Nat} {plan : FloorPlan} {p : Position}
  {d : Direction} {queue : List (Position × Machine)} {moves : List Move}

theorem start (m : Machine) : Layered m (fun _ => 0) (start m) where
  depth_origin := rfl
  path := by
    intro p member
    obtain rfl : Position.origin = p := by simpa [Exploration.start] using member
    exact .start
  arrives := by
    intro cell member
    obtain rfl := List.mem_singleton.1 member
    exact ⟨[], .start, rfl⟩
  oxygen := by simp [Exploration.start, FloorPlan.addFloor]
  ordered := by simp [Exploration.start]
  span := by simp
  closed := by simp

theorem addWall (h : Layered m₀ depth ⟨plan, queue, moves⟩) (q : Position) (moves₁ : List Move) :
    Layered m₀ depth ⟨plan.addWall q, queue, moves₁⟩ where
  depth_origin := h.depth_origin
  path p floor := (h.path p floor).mono fun _ floor => floor
  arrives := h.arrives
  oxygen := h.oxygen
  ordered := h.ordered
  span := h.span
  closed := h.closed

theorem leave (h : Layered m₀ depth ⟨plan, (p, m) :: queue, moves⟩) :
    Layered m₀ depth ⟨plan, queue, moves⟩ where
  depth_origin := h.depth_origin
  path := h.path
  arrives cell member := h.arrives cell (List.mem_cons_of_mem _ member)
  oxygen := h.oxygen
  ordered := (List.pairwise_cons.1 h.ordered).2
  span := by
    intro cell first q floor
    have near := h.span (p, m) rfl q floor
    have later := (List.pairwise_cons.1 h.ordered).1 cell (List.mem_of_mem_head? first)
    dsimp only at near later
    omega
  closed := by
    intro q floor
    rcases h.closed q floor with ⟨m₁, member⟩ | near
    · rcases List.mem_cons.1 member with same | member
      · cases same
        exact .inr fun d floor₁ => h.span (p, m) rfl _ floor₁
      · exact .inl ⟨m₁, member⟩
    · exact .inr near

structure Deepens (plan : FloorPlan) (depth depth₁ : Position → Nat) (p q : Position) : Prop where
  old : ∀ r ∈ plan.floor, depth₁ r = depth r
  new : depth₁ q = depth p + 1

theorem deepens_update (depth : Position → Nat) (p : Position) (unknown : q ∉ plan.floor) :
    Deepens plan depth (Function.update depth q (depth p + 1)) p q where
  old := by
    intro r floor
    apply Function.update_of_ne
    rintro rfl
    exact unknown floor
  new := Function.update_self ..

section

variable {depth₁ : Position → Nat} (h : Layered m₀ depth ⟨plan, (p, m) :: queue, moves⟩)
  (deepens : Deepens plan depth depth₁ p (d.neighbour p))

include h deepens

theorem exists_arrives_addFloor (answers : m.Answers d status m₁)
    (succeeds : status = 1 ∨ status = 2) :
    ∃ route, Droid.Arrives m₀ (route ++ [(d, status)]) (d.neighbour p) m₁ ∧
      (route ++ [(d, status)]).length = depth₁ (d.neighbour p) := by
  obtain ⟨route, arrives, length⟩ := h.arrives (p, m) (by simp)
  refine ⟨route, arrives.move answers succeeds, ?_⟩
  rw [deepens.new, List.length_append, length, List.length_singleton]

variable (charted : Charted ⟨plan, (p, m) :: queue, moves⟩)

include charted

theorem path_addFloor (oxygen : Option Position)
    (member : q ∈ (plan.addFloor (d.neighbour p)).floor) :
    FloorPlan.Path { plan.addFloor (d.neighbour p) with oxygen := oxygen } .origin (depth₁ q)
      q := by
  have kept : ∀ r ∈ plan.floor, r ∈ (plan.addFloor (d.neighbour p)).floor := by
    intro r floor
    simp [floor]
  rw [FloorPlan.mem_floor_addFloor] at member
  rcases member with rfl | member
  · rw [deepens.new]
    exact .step d ((h.path p (charted.queued (p, m) (by simp))).mono kept) (by simp)
  · rw [deepens.old q member]
    exact (h.path q member).mono kept

theorem ordered_addFloor (m₁ : Machine) :
    ((p, m) :: (queue ++ [(d.neighbour p, m₁)])).Pairwise fun cell cell₁ =>
      depth₁ cell.1 ≤ depth₁ cell₁.1 := by
  rw [← List.cons_append, List.pairwise_append]
  refine ⟨?_, by simp, ?_⟩
  · refine h.ordered.imp_of_mem fun {cell cell₁} member member₁ le => ?_
    rw [deepens.old _ (charted.queued cell member), deepens.old _ (charted.queued cell₁ member₁)]
    exact le
  · intro cell member cell₁ member₁
    obtain rfl := List.mem_singleton.1 member₁
    rw [deepens.old _ (charted.queued cell member), deepens.new]
    exact h.span (p, m) rfl _ (charted.queued cell member)

theorem depth_le_addFloor (member : q ∈ (plan.addFloor (d.neighbour p)).floor) :
    depth₁ q ≤ depth₁ p + 1 := by
  rw [deepens.old p (charted.queued (p, m) (by simp))]
  rw [FloorPlan.mem_floor_addFloor] at member
  rcases member with rfl | member
  · rw [deepens.new]
  · rw [deepens.old q member]
    exact h.span (p, m) rfl q member

theorem closed_addFloor (new : ¬plan.isKnown (d.neighbour p)) (m₁ : Machine)
    (member : q ∈ (plan.addFloor (d.neighbour p)).floor) :
    (∃ m₂, (q, m₂) ∈ (p, m) :: (queue ++ [(d.neighbour p, m₁)])) ∨
      ∀ d₁ : Direction, d₁.neighbour q ∈ (plan.addFloor (d.neighbour p)).floor →
        depth₁ (d₁.neighbour q) ≤ depth₁ q + 1 := by
  have queued (waiting : ∃ m₂, (q, m₂) ∈ (p, m) :: queue) :
      ∃ m₂, (q, m₂) ∈ (p, m) :: (queue ++ [(d.neighbour p, m₁)]) := by
    obtain ⟨m₂, member⟩ := waiting
    exact ⟨m₂, List.mem_append_left _ member⟩
  rw [FloorPlan.mem_floor_addFloor] at member
  rcases member with rfl | member
  · exact .inl ⟨m₁, by simp⟩
  -- A cell that has left the queue knows its neighbours, and the new cell is none of them.
  · rcases charted.closed q member with waiting | known
    · exact .inl (queued waiting)
    · refine (h.closed q member).imp queued fun near d₁ inside => ?_
      rw [FloorPlan.mem_floor_addFloor] at inside
      rcases inside with same | inside
      · exact absurd (known d₁) (same ▸ new)
      · rw [deepens.old q member, deepens.old _ inside]
        exact near d₁ inside

theorem addFloor {oxygen : Option Position} (new : ¬plan.isKnown (d.neighbour p))
    (answers : m.Answers d status m₁)
    (found : status = 1 ∧ oxygen = plan.oxygen ∨ status = 2 ∧ oxygen = some (d.neighbour p)) :
    Layered m₀ depth₁ ⟨{ plan.addFloor (d.neighbour p) with oxygen := oxygen },
      (p, m) :: (queue ++ [(d.neighbour p, m₁)]), moves ++ [⟨p, m, d⟩]⟩ := by
  obtain ⟨route, arrives, length⟩ :=
    h.exists_arrives_addFloor deepens answers (found.imp And.left And.left)
  exact {
    depth_origin := by rw [deepens.old _ charted.origin_mem, h.depth_origin]
    path _ := h.path_addFloor deepens charted oxygen
    arrives := by
      intro cell member
      rw [← List.cons_append, List.mem_append, List.mem_singleton] at member
      rcases member with member | rfl
      · rw [deepens.old _ (charted.queued cell member)]
        exact h.arrives cell member
      · exact ⟨_, arrives, length⟩
    oxygen := by
      intro q member
      rcases found with ⟨rfl, rfl⟩ | ⟨rfl, rfl⟩
      · rw [deepens.old q (charted.oxygen q member).1]
        exact h.oxygen q member
      · cases member
        exact ⟨_, m₁, arrives, length, by simp⟩
    ordered := h.ordered_addFloor deepens charted m₁
    span := by
      intro cell first q member
      obtain rfl : (p, m) = cell := by simpa using first
      exact h.depth_le_addFloor deepens charted member
    closed _ := h.closed_addFloor deepens charted new m₁ }

end

theorem step (h : Layered m₀ depth e) (charted : e.Charted) (step : Step e e₁) :
    ∃ depth₁, Layered m₀ depth₁ e₁ := by
  cases step with
  | wall => exact ⟨depth, h.addWall _ _⟩
  | @floor plan p m m₁ queue moves d status oxygen new answers found =>
    have unknown : d.neighbour p ∉ plan.floor := fun floor =>
      new ((plan.isKnown_iff _).2 (.inl floor))
    exact ⟨_, h.addFloor (deepens_update depth p unknown) charted new answers found⟩
  | leave => exact ⟨depth, h.leave⟩

theorem steps (h : Layered m₀ depth e) (charted : e.Charted) (steps : Steps e e₁) :
    ∃ depth₁, Layered m₀ depth₁ e₁ := by
  induction steps with
  | refl => exact ⟨depth, h⟩
  | tail before step ih =>
    obtain ⟨depth₁, layered⟩ := ih
    exact layered.step (charted.steps before) step

theorem depth_le (h : Layered m₀ depth ⟨plan, [], moves⟩) (origin : .origin ∈ plan.floor)
    (path : plan.Path .origin n p) : depth p ≤ n := by
  induction path with
  | start => exact Nat.le_of_eq h.depth_origin
  | @step n p d path inside ih =>
    rcases h.closed p (path.mem_floor origin) with ⟨m, member⟩ | near
    · cases member
    · exact (near d inside).trans (Nat.succ_le_succ ih)

theorem isDistance (h : Layered m₀ depth ⟨plan, [], moves⟩) (origin : .origin ∈ plan.floor)
    (floor : p ∈ plan.floor) : plan.IsDistance .origin p (depth p) :=
  ⟨h.path p floor, fun _ => h.depth_le origin⟩

end Layered

end Exploration

namespace FloorPlan

variable {plan : FloorPlan}

theorem WellFormed.exists_isDistance (h : plan.WellFormed) (floor : p ∈ plan.floor)
    (floor₁ : q ∈ plan.floor) : ∃ n, plan.IsDistance p q n := by
  obtain ⟨n, path⟩ := h.connected p floor
  obtain ⟨k, path₁⟩ := h.connected q floor₁
  obtain ⟨least, -, near⟩ := ((path.symm h.origin_mem).trans path₁).exists_isDistance
  exact ⟨least, near⟩

theorem WellFormed.isSome_oxygenSteps? (h : plan.WellFormed) :
    plan.oxygenSteps?.isSome = plan.oxygen.isSome := by
  rw [Bool.eq_iff_iff, Option.isSome_iff_exists, Option.isSome_iff_exists]
  simp only [oxygenSteps?_eq_some_iff]
  constructor
  · rintro ⟨n, p, found, -⟩
    exact ⟨p, found⟩
  · rintro ⟨p, found⟩
    obtain ⟨n, near⟩ := h.exists_isDistance h.origin_mem (h.oxygen p found).1
    exact ⟨n, p, found, near⟩

end FloorPlan

namespace Droid

/-- A survey that finds oxygen has a shortest way to it, which its droid has gone, and the time to
fill the floor is enough for every cell. -/
theorem survey_oxygen {m : Machine} {plan : FloorPlan} {rounds fuel : Nat}
    (h : (survey rounds m).value fuel = some (.ok plan)) :
    plan.oxygenSteps?.isSome = plan.oxygen.isSome ∧
      plan.fillTime?.isSome = plan.oxygen.isSome ∧
      ∀ p steps minutes, plan.oxygen = some p → plan.oxygenSteps? = some steps →
        plan.fillTime? = some minutes →
          1 ≤ steps ∧ steps ≤ minutes ∧ minutes ≤ plan.floor.size - 1 ∧
          (∀ q ∈ plan.floor, ∃ n ≤ minutes, plan.Path p n q) ∧
          ∃ route m₁, Arrives m route p m₁ ∧ route.length = steps ∧
            route.getLast?.map Prod.snd = some 2 := by
  obtain ⟨moves, -, run⟩ := steps_of_survey h
  have charted := (Exploration.Charted.start m).steps run
  obtain ⟨depth, layered⟩ := (Exploration.Layered.start m).steps (.start m) run
  have wellFormed := charted.wellFormed
  refine ⟨wellFormed.isSome_oxygenSteps?, plan.isSome_fillTime?, ?_⟩
  intro p steps minutes found near far
  obtain ⟨floor, elsewhere⟩ := wellFormed.oxygen p found
  obtain ⟨p₁, same, near⟩ := FloorPlan.oxygenSteps?_eq_some_iff.1 near
  obtain ⟨p₂, same₁, ⟨q, far⟩, farthest⟩ := FloorPlan.fillTime?_eq_some_iff.1 far
  obtain rfl : p = p₁ := Option.some.inj (found.symm.trans same)
  obtain rfl : p = p₂ := Option.some.inj (found.symm.trans same₁)
  have lt := far.lt_size floor
  obtain ⟨route, m₁, arrives, length, last⟩ := layered.oxygen p found
  refine ⟨?_, farthest _ _ (near.symm wellFormed.origin_mem), by omega, ?_, route, m₁, arrives, ?_,
    last⟩
  · rcases Nat.eq_zero_or_pos steps with rfl | positive
    · exact absurd (FloorPlan.IsDistance.zero_iff.1 near) elsewhere
    · exact positive
  · intro q floor₁
    obtain ⟨n, near₁⟩ := wellFormed.exists_isDistance floor floor₁
    exact ⟨n, farthest n q near₁, near₁.1⟩
  · rw [length]
    exact (layered.isDistance wellFormed.origin_mem floor).unique near

theorem survey_oxygen_fickle :
    ∃ plan, (survey 6 fickleDroid).value 6 = some (.ok plan) ∧ plan.floor.size = 5 ∧
      plan.oxygenSteps? = some 1 ∧ plan.fillTime? = some 2 ∧
      ∃ route m₁, Arrives fickleDroid route ⟨1, 0⟩ m₁ ∧ route.length = 1 ∧
        route.getLast?.map Prod.snd = some 2 := by
  obtain ⟨plan, ends, floor, oxygen, steps, minutes⟩ : ∃ plan : FloorPlan,
      (survey 6 fickleDroid).value 6 = some (.ok plan) ∧ plan.floor.size = 5 ∧
        plan.oxygen = some ⟨1, 0⟩ ∧ plan.oxygenSteps? = some 1 ∧ plan.fillTime? = some 2 :=
    ⟨_, rfl, rfl, rfl, rfl, rfl⟩
  obtain ⟨-, -, found⟩ := survey_oxygen ends
  obtain ⟨-, -, -, -, way⟩ := found ⟨1, 0⟩ 1 2 oxygen steps minutes
  exact ⟨plan, ends, floor, steps, minutes, way⟩

end Droid

end WordMachine
