import Mathlib.Data.Set.Finite.Basic
import WordMachine.Device.Droid
import WordMachine.Proofs.Session

namespace WordMachine

structure Maze where
  floor : Set Position
  oxygen : Option Position
  origin_mem : Position.origin ∈ floor
  oxygen_mem : ∀ p, oxygen = some p → p ∈ floor

def Machine.Answers (m : Machine) (d : Direction) (status : Word) (m₁ : Machine) : Prop :=
  ∃ fed, m.feed [d.toWord] = .ok fed ∧ fed.Calls ⟨m₁, .ok [status]⟩

namespace Maze

/-- The machines in `Stands p` drive a droid that stands at `p`: they answer every move as the maze
asks for, and drive a droid at the neighbour after a move that succeeds. -/
structure Drives (z : Maze) (Stands : Position → Machine → Prop) : Prop where
  wall : ∀ {p m} (d : Direction), Stands p m → d.neighbour p ∉ z.floor →
    ∃ m₁, m.Answers d 0 m₁
  moved : ∀ {p m} (d : Direction), Stands p m → d.neighbour p ∈ z.floor →
    z.oxygen ≠ some (d.neighbour p) → ∃ m₁, m.Answers d 1 m₁ ∧ Stands (d.neighbour p) m₁
  oxygen : ∀ {p m} (d : Direction), Stands p m → z.oxygen = some (d.neighbour p) →
    ∃ m₁, m.Answers d 2 m₁ ∧ Stands (d.neighbour p) m₁

inductive Reaches (z : Maze) : Position → Prop
  | origin : Reaches z .origin
  | step {p : Position} (d : Direction) :
    Reaches z p → d.neighbour p ∈ z.floor → Reaches z (d.neighbour p)

def component (z : Maze) : Set Position := {p | z.Reaches p}

theorem Reaches.mem_floor {z : Maze} (h : z.Reaches p) : p ∈ z.floor := by
  cases h with
  | origin => exact z.origin_mem
  | step d _ inside => exact inside

end Maze

namespace FloorPlan

theorem isKnown_iff (plan : FloorPlan) (p : Position) :
    plan.isKnown p ↔ p ∈ plan.floor ∨ p ∈ plan.walls := by
  simp [isKnown]

@[simp] theorem mem_floor_addFloor (plan : FloorPlan) (p q : Position) :
    q ∈ (plan.addFloor p).floor ↔ p = q ∨ q ∈ plan.floor := by
  simp [addFloor, Std.TreeSet.mem_insert]

@[simp] theorem mem_walls_addWall (plan : FloorPlan) (p q : Position) :
    q ∈ (plan.addWall p).walls ↔ p = q ∨ q ∈ plan.walls := by
  simp [addWall, Std.TreeSet.mem_insert]

theorem isKnown_addWall (plan : FloorPlan) (p q : Position) :
    (plan.addWall p).isKnown q ↔ p = q ∨ plan.isKnown q := by
  have floor : (plan.addWall p).floor = plan.floor := rfl
  simp only [isKnown_iff, mem_walls_addWall, floor]
  exact or_left_comm

theorem isKnown_addFloor (plan : FloorPlan) (p q : Position) :
    (plan.addFloor p).isKnown q ↔ p = q ∨ plan.isKnown q := by
  have walls : (plan.addFloor p).walls = plan.walls := rfl
  simp only [isKnown_iff, mem_floor_addFloor, walls]
  exact or_assoc

end FloorPlan

namespace Droid

open Session

theorem tryMove_ends {m m₁ : Machine} (h : m.Answers d w m₁)
    (known : Status.ofWord? w = some status) : (tryMove m d).Ends (.ok (status, m₁)) := by
  obtain ⟨fed, feed, calls⟩ := h
  unfold tryMove
  rw [feed]
  apply (ends_call calls).bind
  simp only [known]
  exact ends_pure _

variable {z : Maze} {Stands : Position → Machine → Prop}

/-- What is known in the middle of a survey: all of it is true, and whatever is next to a floor cell
is known too, unless the cell is still in the queue. -/
structure Explored (z : Maze) (Stands : Position → Machine → Prop) (plan : FloorPlan)
    (queue : List (Position × Machine)) : Prop where
  origin_mem : .origin ∈ plan.floor
  reaches : ∀ p ∈ plan.floor, z.Reaches p
  walls : ∀ p ∈ plan.walls, p ∉ z.floor ∧ ∃ q ∈ z.component, ∃ d : Direction, p = d.neighbour q
  oxygen : ∀ p, plan.oxygen = some p ↔ z.oxygen = some p ∧ p ∈ plan.floor ∧ p ≠ .origin
  stands : ∀ p m, (p, m) ∈ queue → p ∈ plan.floor ∧ Stands p m
  closed : ∀ p ∈ plan.floor,
    (∃ m, (p, m) ∈ queue) ∨ ∀ d : Direction, plan.isKnown (d.neighbour p)

namespace Explored

theorem start (h : Stands .origin m) :
    Explored z Stands (FloorPlan.addFloor {} .origin) [(.origin, m)] where
  origin_mem := by simp
  reaches := by
    intro p member
    obtain rfl : Position.origin = p := by simpa using member
    exact .origin
  walls := by
    intro p member
    simp [FloorPlan.addFloor] at member
  oxygen := by
    intro p
    constructor
    · intro found
      cases found
    · rintro ⟨-, member, elsewhere⟩
      exact absurd (by simpa [eq_comm] using member) elsewhere
  stands := by
    intro p m₁ member
    simp only [List.mem_singleton, Prod.mk.injEq] at member
    obtain ⟨rfl, rfl⟩ := member
    exact ⟨by simp, h⟩
  closed := by
    intro p member
    obtain rfl : Position.origin = p := by simpa using member
    exact .inl ⟨m, by simp⟩

theorem addWall {p : Position} {d : Direction} (h : Explored z Stands plan queue)
    (member : p ∈ plan.floor) (outside : d.neighbour p ∉ z.floor) :
    Explored z Stands (plan.addWall (d.neighbour p)) queue where
  origin_mem := h.origin_mem
  reaches := h.reaches
  walls := by
    intro q wall
    rw [FloorPlan.mem_walls_addWall] at wall
    rcases wall with rfl | wall
    · exact ⟨outside, p, h.reaches p member, d, rfl⟩
    · exact h.walls q wall
  oxygen := h.oxygen
  stands := h.stands
  closed := by
    intro q inside
    refine (h.closed q inside).imp_right fun known d => ?_
    rw [FloorPlan.isKnown_addWall]
    exact .inr (known d)

theorem addFloor {p : Position} {d : Direction} (h : Explored z Stands plan queue)
    (member : p ∈ plan.floor) (inside : d.neighbour p ∈ z.floor) (there : Stands (d.neighbour p) m)
    (oxygen : Option Position)
    (found : ∀ q, oxygen = some q ↔
      z.oxygen = some q ∧ q ∈ (plan.addFloor (d.neighbour p)).floor ∧ q ≠ .origin) :
    Explored z Stands { plan.addFloor (d.neighbour p) with oxygen := oxygen }
      (queue ++ [(d.neighbour p, m)]) where
  origin_mem := by simp [h.origin_mem]
  reaches := by
    intro q floor
    rw [FloorPlan.mem_floor_addFloor] at floor
    rcases floor with rfl | floor
    · exact .step d (h.reaches p member) inside
    · exact h.reaches q floor
  walls := h.walls
  oxygen := found
  stands := by
    intro q m₁ queued
    rw [List.mem_append, List.mem_singleton] at queued
    rcases queued with queued | same
    · obtain ⟨floor, there⟩ := h.stands q m₁ queued
      exact ⟨by simp [floor], there⟩
    · cases same
      exact ⟨by simp, there⟩
  closed := by
    intro q floor
    rw [FloorPlan.mem_floor_addFloor] at floor
    rcases floor with rfl | floor
    · exact .inl ⟨m, by simp⟩
    · rcases h.closed q floor with ⟨m₁, queued⟩ | known
      · exact .inl ⟨m₁, List.mem_append_left _ queued⟩
      · refine .inr fun d₁ => ?_
        have := (FloorPlan.isKnown_addFloor plan (d.neighbour p) _).2 (.inr (known d₁))
        exact this

theorem pop (h : Explored z Stands plan ((p, m) :: queue))
    (known : ∀ d : Direction, plan.isKnown (d.neighbour p)) : Explored z Stands plan queue where
  origin_mem := h.origin_mem
  reaches := h.reaches
  walls := h.walls
  oxygen := h.oxygen
  stands q m₁ queued := h.stands q m₁ (List.mem_cons_of_mem _ queued)
  closed := by
    intro q floor
    rcases h.closed q floor with ⟨m₁, queued⟩ | known₁
    · rw [List.mem_cons] at queued
      rcases queued with same | queued
      · cases same
        exact .inr known
      · exact .inl ⟨m₁, queued⟩
    · exact .inr known₁

theorem mem_floor_iff (h : Explored z Stands plan []) (p : Position) :
    p ∈ plan.floor ↔ p ∈ z.component := by
  refine ⟨h.reaches p, fun reaches => ?_⟩
  induction reaches with
  | origin => exact h.origin_mem
  | @step p d _ inside ih =>
    rcases h.closed p ih with ⟨m, queued⟩ | known
    · cases queued
    · rcases (plan.isKnown_iff _).1 (known d) with floor | wall
      · exact floor
      · exact absurd inside (h.walls _ wall).1

theorem mem_walls_iff (h : Explored z Stands plan []) (p : Position) :
    p ∈ plan.walls ↔ p ∉ z.floor ∧ ∃ q ∈ z.component, ∃ d : Direction, p = d.neighbour q := by
  refine ⟨h.walls p, ?_⟩
  rintro ⟨outside, q, reaches, d, rfl⟩
  rcases h.closed q ((h.mem_floor_iff q).2 reaches) with ⟨m, queued⟩ | known
  · cases queued
  · rcases (plan.isKnown_iff _).1 (known d) with floor | wall
    · exact absurd (h.reaches _ floor).mem_floor outside
    · exact wall

end Explored

noncomputable def remaining (finite : z.component.Finite) (plan : FloorPlan)
    (queue : List (Position × Machine)) : Nat :=
  (finite.toFinset.filter (· ∉ plan.floor)).card + queue.length

theorem remaining_addFloor (finite : z.component.Finite) {p : Position} (reaches : z.Reaches p)
    (unknown : p ∉ plan.floor) (oxygen : Option Position) (m : Machine) :
    remaining finite { plan.addFloor p with oxygen := oxygen } (queue ++ [(p, m)]) =
      remaining finite plan queue := by
  have unseen : p ∈ finite.toFinset.filter (· ∉ plan.floor) := by
    simpa using ⟨reaches, unknown⟩
  have erased : finite.toFinset.filter (· ∉ (plan.addFloor p).floor) =
      (finite.toFinset.filter (· ∉ plan.floor)).erase p := by
    ext q
    simp only [Finset.mem_filter, Finset.mem_erase, FloorPlan.mem_floor_addFloor, not_or]
    constructor
    · rintro ⟨inside, other, unknown⟩
      exact ⟨Ne.symm other, inside, unknown⟩
    · rintro ⟨other, inside, unknown⟩
      exact ⟨inside, Ne.symm other, unknown⟩
  have card := Finset.card_erase_add_one unseen
  simp only [remaining, erased, List.length_append, List.length_singleton]
  omega

structure Extends (finite : z.component.Finite) (Stands : Position → Machine → Prop)
    (cell : Position × Machine) (plan : FloorPlan) (queue : List (Position × Machine))
    (plan₁ : FloorPlan) (queue₁ : List (Position × Machine)) : Prop where
  explored : Explored z Stands plan₁ (cell :: queue₁)
  isKnown : ∀ q, plan.isKnown q → plan₁.isKnown q
  remaining : remaining finite plan₁ queue₁ = remaining finite plan queue

theorem Extends.trans {finite : z.component.Finite}
    (h : Extends finite Stands cell plan queue plan₁ queue₁)
    (h₁ : Extends finite Stands cell plan₁ queue₁ plan₂ queue₂) :
    Extends finite Stands cell plan queue plan₂ queue₂ where
  explored := h₁.explored
  isKnown q known := h₁.isKnown q (h.isKnown q known)
  remaining := h₁.remaining.trans h.remaining

theorem Explored.extends_addFloor (finite : z.component.Finite) {p : Position} {d : Direction}
    (h : Explored z Stands plan ((p, m) :: queue)) (inside : d.neighbour p ∈ z.floor)
    (unknown : d.neighbour p ∉ plan.floor) (there : Stands (d.neighbour p) m₁)
    (oxygen : Option Position)
    (found : ∀ q, oxygen = some q ↔
      z.oxygen = some q ∧ q ∈ (plan.addFloor (d.neighbour p)).floor ∧ q ≠ .origin) :
    Extends finite Stands (p, m) plan queue
      { plan.addFloor (d.neighbour p) with oxygen := oxygen }
      (queue ++ [(d.neighbour p, m₁)]) where
  explored := h.addFloor (h.stands p m (by simp)).1 inside there oxygen found
  isKnown q known := (plan.isKnown_addFloor _ q).2 (.inr known)
  remaining := by
    have reaches := h.reaches p (h.stands p m (by simp)).1
    exact remaining_addFloor finite (.step d reaches inside) unknown oxygen m₁

theorem Explored.look (drives : z.Drives Stands) (finite : z.component.Finite)
    (h : Explored z Stands plan ((p, m) :: queue)) (d : Direction) :
    ∃ plan₁ queue₁,
      (∀ rest result, (lookAround p m rest plan₁ queue₁).Ends result →
        (lookAround p m (d :: rest) plan queue).Ends result) ∧
      Extends finite Stands (p, m) plan queue plan₁ queue₁ ∧ plan₁.isKnown (d.neighbour p) := by
  obtain ⟨floor, stands⟩ := h.stands p m (by simp)
  by_cases known : plan.isKnown (d.neighbour p)
  · refine ⟨plan, queue, fun rest result ends => ?_, ⟨h, fun _ known => known, rfl⟩, known⟩
    rw [lookAround, if_pos known]
    exact ends
  · have unknown : d.neighbour p ∉ plan.floor := fun floor =>
      known ((plan.isKnown_iff _).2 (.inl floor))
    have elsewhere : d.neighbour p ≠ .origin := fun same => unknown (same ▸ h.origin_mem)
    have added := (plan.isKnown_addFloor (d.neighbour p) _).2 (.inl rfl)
    by_cases inside : d.neighbour p ∈ z.floor
    · by_cases oxygen : z.oxygen = some (d.neighbour p)
      · obtain ⟨m₁, answers, there⟩ := drives.oxygen d stands oxygen
        refine ⟨_, _, fun rest result ends => ?_,
          h.extends_addFloor finite inside unknown there (some (d.neighbour p)) fun q => ?_, added⟩
        · rw [lookAround, if_neg known]
          exact (tryMove_ends answers rfl).bind ((ends_log _).bind ends)
        · rw [oxygen]
          refine ⟨?_, And.left⟩
          rintro ⟨⟩
          exact ⟨rfl, by simp, elsewhere⟩
      · obtain ⟨m₁, answers, there⟩ := drives.moved d stands inside oxygen
        refine ⟨_, _, fun rest result ends => ?_,
          h.extends_addFloor finite inside unknown there plan.oxygen fun q => ?_, added⟩
        · rw [lookAround, if_neg known]
          exact (tryMove_ends answers rfl).bind ends
        · refine (h.oxygen q).trans (and_congr_right fun found => and_congr_left fun _ => ?_)
          rw [FloorPlan.mem_floor_addFloor, or_iff_right]
          rintro rfl
          exact oxygen found
    · obtain ⟨m₁, answers⟩ := drives.wall d stands inside
      refine ⟨plan.addWall (d.neighbour p), queue, fun rest result ends => ?_,
        ⟨h.addWall floor inside, ?_, rfl⟩, ?_⟩
      · rw [lookAround, if_neg known]
        exact (tryMove_ends answers rfl).bind ends
      · exact fun q known => (plan.isKnown_addWall _ q).2 (.inr known)
      · exact (plan.isKnown_addWall _ _).2 (.inl rfl)

theorem Explored.lookAround (drives : z.Drives Stands) (finite : z.component.Finite)
    (h : Explored z Stands plan ((p, m) :: queue)) (directions : List Direction) :
    ∃ plan₁ queue₁,
      (lookAround p m directions plan queue).Ends (.ok (plan₁, queue₁)) ∧
      Extends finite Stands (p, m) plan queue plan₁ queue₁ ∧
      ∀ d ∈ directions, plan₁.isKnown (d.neighbour p) := by
  induction directions generalizing plan queue with
  | nil => exact ⟨plan, queue, ends_pure _, ⟨h, fun _ known => known, rfl⟩, by simp⟩
  | cons d rest ih =>
    obtain ⟨plan₁, queue₁, ends, step, known⟩ := h.look drives finite d
    obtain ⟨plan₂, queue₂, ends₁, steps, known₁⟩ := ih step.explored
    refine ⟨plan₂, queue₂, ends _ _ ends₁, step.trans steps, ?_⟩
    intro d₁ member
    rw [List.mem_cons] at member
    rcases member with rfl | member
    · exact steps.isKnown _ known
    · exact known₁ d₁ member

theorem Explored.surveyFrom (drives : z.Drives Stands) (finite : z.component.Finite)
    (h : Explored z Stands plan queue) (enough : remaining finite plan queue < rounds) :
    ∃ plan₁, (surveyFrom rounds plan queue).Ends (.ok plan₁) ∧ Explored z Stands plan₁ [] := by
  induction rounds generalizing plan queue with
  | zero => cases enough
  | succ rounds ih =>
    cases queue with
    | nil => exact ⟨plan, (ends_log _).bind (ends_pure _), h⟩
    | cons cell queue =>
      obtain ⟨p, m⟩ := cell
      obtain ⟨plan₁, queue₁, ends, looked, known⟩ := h.lookAround drives finite Direction.all
      have popped := looked.explored.pop fun d => known d (by cases d <;> decide)
      have fewer : remaining finite plan₁ queue₁ < rounds := by
        rw [looked.remaining]
        simp only [remaining, List.length_cons] at enough ⊢
        omega
      obtain ⟨plan₂, ends₁, h₂⟩ := ih popped fewer
      exact ⟨plan₂, ends.bind ends₁, h₂⟩

theorem value_surveyFrom_of_le (h : (surveyFrom rounds plan queue).value fuel = some result)
    (le : rounds ≤ rounds₁) : (surveyFrom rounds₁ plan queue).value fuel = some result := by
  induction rounds generalizing rounds₁ plan queue with
  | zero => cases h
  | succ rounds ih =>
    obtain ⟨rounds₂, rfl⟩ : ∃ rounds₂, rounds₁ = rounds₂ + 1 := ⟨rounds₁ - 1, by omega⟩
    cases queue with
    | nil => exact h
    | cons cell queue =>
      obtain ⟨p, m⟩ := cell
      simp only [surveyFrom, value_bind, Option.bind_eq_some_iff] at h ⊢
      obtain ⟨found, looked, h⟩ := h
      refine ⟨found, looked, ?_⟩
      cases found with
      | error cause => exact h
      | ok found => exact ih h (by omega)

/-- A survey of a finite part of a maze ends, and its plan is that part with the walls around it.
The oxygen system is on the plan if it can be reached and is not where the droid starts. -/
theorem survey_component {z : Maze} {Stands : Position → Machine → Prop} {m : Machine}
    (drives : z.Drives Stands) (start : Stands .origin m) (finite : z.component.Finite) :
    ∃ (plan : FloorPlan) (bound : Nat),
      (∀ rounds fuel, bound ≤ rounds → bound ≤ fuel →
        (survey rounds m).value fuel = some (.ok plan)) ∧
      (∀ p, p ∈ plan.floor ↔ p ∈ z.component) ∧
      (∀ p, p ∈ plan.walls ↔
        p ∉ z.floor ∧ ∃ q ∈ z.component, ∃ d : Direction, p = d.neighbour q) ∧
      ∀ p, plan.oxygen = some p ↔ z.oxygen = some p ∧ p ∈ z.component ∧ p ≠ .origin := by
  obtain ⟨enough, lt⟩ : ∃ rounds,
      remaining finite (FloorPlan.addFloor {} .origin) [(.origin, m)] < rounds :=
    ⟨_, Nat.lt_succ_self _⟩
  obtain ⟨plan, ⟨fuel, ends⟩, explored⟩ := (Explored.start start).surveyFrom drives finite lt
  refine ⟨plan, max enough fuel, ?_, explored.mem_floor_iff, explored.mem_walls_iff, ?_⟩
  · intro rounds fuel₁ rounds_le fuel_le
    apply value_of_le (value_surveyFrom_of_le ends _)
    · exact (Nat.le_max_right enough fuel).trans fuel_le
    · exact (Nat.le_max_left enough fuel).trans rounds_le
  · intro p
    rw [explored.oxygen, explored.mem_floor_iff]

def corridor : Maze where
  floor := {.origin, ⟨-1, 0⟩}
  oxygen := some ⟨-1, 0⟩
  origin_mem := by simp
  oxygen_mem := by simp

def corridorDroid : Machine :=
  .ofProgram [3, 100, 1008, 100, 3, 102, 1005, 102, 21, 1008, 100, 4, 102, 1005, 102, 33, 104, 0,
    1105, 1, 0, 1005, 101, 16, 1101, 0, 1, 101, 104, 2, 1105, 1, 0, 1006, 101, 16, 1101, 0, 0, 101,
    104, 1, 1105, 1, 0]

def corridorDroidAfter (move place : Word) : Machine :=
  { corridorDroid with
    memory := ((corridorDroid.memory.set 100 move).set 102 1).set 101 place
    state := .waiting }

inductive InCorridor : Position → Machine → Prop
  | start : InCorridor .origin corridorDroid
  | west : InCorridor ⟨-1, 0⟩ (corridorDroidAfter 3 1)
  | east : InCorridor .origin (corridorDroidAfter 4 0)

theorem exists_answers (fuel : Nat) {m : Machine}
    (h : ((m.feed [d.toWord]).toOption.bind fun fed => (fed.call fuel).map Reply.result) =
      some (.ok [w])) : ∃ m₁, m.Answers d w m₁ := by
  cases feed : m.feed [d.toWord] with
  | error cause => simp [feed, Except.toOption] at h
  | ok fed =>
    simp only [feed, Except.toOption, Option.bind_some, Option.map_eq_some_iff] at h
    obtain ⟨⟨m₁, result⟩, call, rfl⟩ := h
    exact ⟨m₁, fed, feed, fuel, call⟩

theorem corridor_drives : corridor.Drives InCorridor where
  wall := by
    intro p m d stands outside
    cases stands with
    | start =>
      cases d with
      | west => exact absurd (.inr rfl) outside
      | _ => exact exists_answers 20 rfl
    | west =>
      cases d with
      | east => exact absurd (.inl rfl) outside
      | _ => exact exists_answers 20 rfl
    | east =>
      cases d with
      | west => exact absurd (.inr rfl) outside
      | _ => exact exists_answers 20 rfl
  moved := by
    intro p m d stands inside other
    cases stands with
    | start => cases d <;> simp [corridor, Direction.neighbour, Position.origin] at inside other
    | west =>
      cases d with
      | east => exact ⟨_, ⟨_, rfl, 20, rfl⟩, .east⟩
      | _ => simp [corridor, Direction.neighbour, Position.origin] at inside
    | east => cases d <;> simp [corridor, Direction.neighbour, Position.origin] at inside other
  oxygen := by
    intro p m d stands found
    cases stands with
    | start =>
      cases d with
      | west => exact ⟨_, ⟨_, rfl, 20, rfl⟩, .west⟩
      | _ => simp [corridor, Direction.neighbour, Position.origin] at found
    | west => cases d <;> simp [corridor, Direction.neighbour] at found
    | east =>
      cases d with
      | west => exact ⟨_, ⟨_, rfl, 20, rfl⟩, .west⟩
      | _ => simp [corridor, Direction.neighbour, Position.origin] at found

theorem survey_component_corridor :
    ∃ (plan : FloorPlan) (bound : Nat),
      (∀ rounds fuel, bound ≤ rounds → bound ≤ fuel →
        (survey rounds corridorDroid).value fuel = some (.ok plan)) ∧
      (∀ p, p ∈ plan.floor ↔ p = .origin ∨ p = ⟨-1, 0⟩) ∧
      ⟨1, 0⟩ ∈ plan.walls ∧ ⟨-2, 0⟩ ∈ plan.walls ∧ plan.oxygen = some ⟨-1, 0⟩ := by
  have west : corridor.Reaches ⟨-1, 0⟩ := .step (p := .origin) .west .origin (.inr rfl)
  have component : ∀ p, p ∈ corridor.component ↔ p = .origin ∨ p = ⟨-1, 0⟩ := by
    intro p
    refine ⟨Maze.Reaches.mem_floor, ?_⟩
    rintro (rfl | rfl)
    · exact .origin
    · exact west
  have finite : corridor.component.Finite :=
    (Set.toFinite {.origin, ⟨-1, 0⟩}).subset fun p => (component p).1
  obtain ⟨plan, bound, ends, floor, walls, oxygen⟩ :=
    survey_component corridor_drives .start finite
  refine ⟨plan, bound, ends, fun p => (floor p).trans (component p), ?_, ?_, ?_⟩
  · exact (walls _).2 ⟨by simp [corridor, Position.origin], .origin, .origin, .east, rfl⟩
  · exact (walls _).2 ⟨by simp [corridor, Position.origin], _, west, .west, rfl⟩
  · exact (oxygen _).2 ⟨rfl, west, by simp [Position.origin]⟩

end Droid

end WordMachine
