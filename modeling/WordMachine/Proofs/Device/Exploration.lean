import Mathlib.Logic.Relation
import WordMachine.Proofs.Device.Survey
import WordMachine.Proofs.FloorPlan
import WordMachine.Proofs.Machine.Resumption

namespace WordMachine

def Status.toWord : Status → Word
  | .wall => 0
  | .moved => 1
  | .oxygen => 2

theorem Status.eq_toWord_of_ofWord? (h : ofWord? w = some status) : w = status.toWord := by
  rw [← Int64.toInt_inj]
  unfold ofWord? at h
  split at h
  · next zero =>
    cases h
    exact zero
  · next one =>
    cases h
    exact one
  · next two =>
    cases h
    exact two
  · cases h

structure Move where
  position : Position
  machine : Machine
  direction : Direction

namespace Move

def target (move : Move) : Position := move.direction.neighbour move.position

def sent (move : Move) : Machine := move.machine.enqueue [move.direction.toWord]

end Move

/-- The route takes the droid of a machine from the origin to a cell, one call for each move, and
every move succeeds. -/
inductive Droid.Arrives (m₀ : Machine) : List (Direction × Word) → Position → Machine → Prop
  | start : Arrives m₀ [] .origin m₀
  | move {route : List (Direction × Word)} {p : Position} {m m₁ : Machine} {d : Direction}
    {status : Word} : Arrives m₀ route p m → m.Answers d status m₁ → status = 1 ∨ status = 2 →
      Arrives m₀ (route ++ [(d, status)]) (d.neighbour p) m₁

structure Exploration where
  plan : FloorPlan
  queue : List (Position × Machine)
  moves : List Move

namespace Exploration

def start (m : Machine) : Exploration := ⟨FloorPlan.addFloor {} .origin, [(.origin, m)], []⟩

inductive Step : Exploration → Exploration → Prop
  | wall {plan : FloorPlan} {p : Position} {m m₁ : Machine} {queue : List (Position × Machine)}
    {moves : List Move} {d : Direction} :
    ¬plan.isKnown (d.neighbour p) → m.Answers d 0 m₁ →
      Step ⟨plan, (p, m) :: queue, moves⟩
        ⟨plan.addWall (d.neighbour p), (p, m) :: queue, moves ++ [⟨p, m, d⟩]⟩
  | floor {plan : FloorPlan} {p : Position} {m m₁ : Machine} {queue : List (Position × Machine)}
    {moves : List Move} {d : Direction} {status : Word} {oxygen : Option Position} :
    ¬plan.isKnown (d.neighbour p) → m.Answers d status m₁ →
      status = 1 ∧ oxygen = plan.oxygen ∨ status = 2 ∧ oxygen = some (d.neighbour p) →
      Step ⟨plan, (p, m) :: queue, moves⟩
        ⟨{ plan.addFloor (d.neighbour p) with oxygen := oxygen },
          (p, m) :: (queue ++ [(d.neighbour p, m₁)]), moves ++ [⟨p, m, d⟩]⟩
  | leave {plan : FloorPlan} {p : Position} {m : Machine} {queue : List (Position × Machine)}
    {moves : List Move} :
    (∀ d : Direction, plan.isKnown (d.neighbour p)) →
      Step ⟨plan, (p, m) :: queue, moves⟩ ⟨plan, queue, moves⟩

def Steps : Exploration → Exploration → Prop := Relation.ReflTransGen Step

theorem Step.isKnown (h : Step e e₁) (known : e.plan.isKnown p) : e₁.plan.isKnown p := by
  cases h with
  | wall => exact (FloorPlan.isKnown_addWall ..).2 (.inr known)
  | floor => exact (FloorPlan.isKnown_addFloor ..).2 (.inr known)
  | leave => exact known

theorem Steps.isKnown (h : Steps e e₁) (known : e.plan.isKnown p) : e₁.plan.isKnown p := by
  induction h with
  | refl => exact known
  | tail _ step ih => exact step.isKnown ih

end Exploration

namespace Droid

open Session
open Exploration (Steps)

theorem answers_of_tryMove (h : (tryMove m d).value fuel = some (.ok (status, m₁))) :
    m.Answers d status.toWord m₁ ∧ (tryMove m d).called fuel = [m.enqueue [d.toWord]] := by
  have feed : m.feed [d.toWord] = .ok (m.enqueue [d.toWord]) := m.feed_eq_enqueue (by simp)
  unfold tryMove at h ⊢
  simp only [feed] at h ⊢
  simp only [value_bind, value_call, Option.bind_eq_some_iff] at h
  obtain ⟨⟨m₂, result⟩, call, h⟩ := h
  rw [called_bind ((value_call fuel _).trans call), called_call]
  match result with
  | .error cause => simp at h
  | .ok [] => simp at h
  | .ok (_ :: _ :: _) => simp at h
  | .ok [w] =>
    cases known : Status.ofWord? w with
    | none => simp [known] at h
    | some found =>
      simp only [known, value_pure, Option.some.injEq, Except.ok.injEq, Prod.mk.injEq] at h
      obtain ⟨rfl, rfl⟩ := h
      rw [Status.eq_toWord_of_ofWord? known] at call
      exact ⟨⟨_, feed, fuel, call⟩, by simp [known]⟩

theorem step_of_lookAround
    (h : (lookAround p m (d :: rest) plan queue).value fuel = some (.ok found))
    (moves : List Move) :
    ∃ plan₁ queue₁ made,
      (lookAround p m rest plan₁ queue₁).value fuel = some (.ok found) ∧
      (lookAround p m (d :: rest) plan queue).called fuel =
        made.map Move.sent ++ (lookAround p m rest plan₁ queue₁).called fuel ∧
      Steps ⟨plan, (p, m) :: queue, moves⟩ ⟨plan₁, (p, m) :: queue₁, moves ++ made⟩ ∧
      plan₁.isKnown (d.neighbour p) := by
  rw [lookAround] at h ⊢
  by_cases known : plan.isKnown (d.neighbour p)
  · rw [if_pos known] at h ⊢
    exact ⟨plan, queue, [], h, rfl, by simpa using .refl, known⟩
  · rw [if_neg known] at h ⊢
    rw [value_bind, Option.bind_eq_some_iff] at h
    obtain ⟨result, tried, h⟩ := h
    rw [called_bind tried]
    cases result with
    | error cause => simp at h
    | ok reached =>
      obtain ⟨status, m₁⟩ := reached
      obtain ⟨answers, called⟩ := answers_of_tryMove tried
      cases status with
      | wall =>
        refine ⟨_, _, [⟨p, m, d⟩], h, ?_, .single (.wall known answers), ?_⟩
        · rw [called]
          rfl
        · exact (plan.isKnown_addWall _ _).2 (.inl rfl)
      | moved =>
        refine ⟨_, _, [⟨p, m, d⟩], h, ?_, .single (.floor known answers (.inl ⟨rfl, rfl⟩)), ?_⟩
        · rw [called]
          rfl
        · exact (plan.isKnown_addFloor _ _).2 (.inl rfl)
      | oxygen =>
        refine ⟨_, _, [⟨p, m, d⟩], h, ?_, .single (.floor known answers (.inr ⟨rfl, rfl⟩)), ?_⟩
        · rw [called]
          rfl
        · exact (plan.isKnown_addFloor _ _).2 (.inl rfl)

theorem steps_of_lookAround
    (h : (lookAround p m directions plan queue).value fuel = some (.ok (plan₁, queue₁)))
    (moves : List Move) :
    ∃ made,
      (lookAround p m directions plan queue).called fuel = made.map Move.sent ∧
      Steps ⟨plan, (p, m) :: queue, moves⟩ ⟨plan₁, (p, m) :: queue₁, moves ++ made⟩ ∧
      ∀ d ∈ directions, plan₁.isKnown (d.neighbour p) := by
  induction directions generalizing plan queue moves with
  | nil =>
    simp only [lookAround, value_pure, Option.some.injEq, Except.ok.injEq, Prod.mk.injEq] at h
    obtain ⟨rfl, rfl⟩ := h
    exact ⟨[], rfl, by simpa using .refl, by simp⟩
  | cons d rest ih =>
    obtain ⟨plan₂, queue₂, made, h, called, steps, known⟩ := step_of_lookAround h moves
    obtain ⟨more, called₁, steps₁, known₁⟩ := ih h (moves ++ made)
    refine ⟨made ++ more, ?_, ?_, ?_⟩
    · rw [called, called₁, List.map_append]
    · rw [← List.append_assoc]
      exact steps.trans steps₁
    · intro d₁ member
      rw [List.mem_cons] at member
      rcases member with rfl | member
      · exact steps₁.isKnown known
      · exact known₁ d₁ member

theorem steps_of_surveyFrom (h : (surveyFrom rounds plan queue).value fuel = some (.ok plan₁))
    (moves : List Move) :
    ∃ made,
      (surveyFrom rounds plan queue).called fuel = made.map Move.sent ∧
      Steps ⟨plan, queue, moves⟩ ⟨plan₁, [], moves ++ made⟩ := by
  induction rounds generalizing plan queue moves with
  | zero => cases h
  | succ rounds ih =>
    cases queue with
    | nil =>
      cases h
      exact ⟨[], rfl, by simpa using .refl⟩
    | cons cell queue =>
      obtain ⟨p, m⟩ := cell
      rw [surveyFrom] at h ⊢
      rw [value_bind, Option.bind_eq_some_iff] at h
      obtain ⟨result, looked, h⟩ := h
      rw [called_bind looked]
      cases result with
      | error cause => simp at h
      | ok seen =>
        obtain ⟨plan₂, queue₂⟩ := seen
        obtain ⟨made, called, steps, known⟩ := steps_of_lookAround looked moves
        obtain ⟨more, called₁, steps₁⟩ := ih h (moves ++ made)
        refine ⟨made ++ more, ?_, ?_⟩
        · rw [called, List.map_append, ← called₁]
        · rw [← List.append_assoc]
          exact (steps.tail (.leave fun d => known d d.mem_all)).trans steps₁

theorem steps_of_survey (h : (survey rounds m).value fuel = some (.ok plan)) :
    ∃ moves, (survey rounds m).called fuel = moves.map Move.sent ∧
      Steps (.start m) ⟨plan, [], moves⟩ :=
  steps_of_surveyFrom h []

end Droid

namespace FloorPlan

structure Coherent (plan : FloorPlan) : Prop where
  origin_mem : .origin ∈ plan.floor
  disjoint : ∀ p ∈ plan.floor, p ∉ plan.walls
  connected : ∀ p ∈ plan.floor, ∃ n, plan.Path .origin n p
  adjacent : ∀ p ∈ plan.walls, ∃ q ∈ plan.floor, ∃ d : Direction, p = d.neighbour q
  oxygen : ∀ p, plan.oxygen = some p → p ∈ plan.floor ∧ p ≠ .origin

structure WellFormed (plan : FloorPlan) : Prop extends Coherent plan where
  enclosed : ∀ p ∈ plan.floor, ∀ d : Direction,
    d.neighbour p ∈ plan.floor ∨ d.neighbour p ∈ plan.walls

theorem size_walls_addWall {plan : FloorPlan} (h : p ∉ plan.walls) :
    (plan.addWall p).walls.size = plan.walls.size + 1 := by
  simp [addWall, Std.TreeSet.size_insert, h]

theorem size_floor_addFloor {plan : FloorPlan} (h : p ∉ plan.floor) :
    (plan.addFloor p).floor.size = plan.floor.size + 1 := by
  simp [addFloor, Std.TreeSet.size_insert, h]

namespace Coherent

variable {plan : FloorPlan} {p : Position} {d : Direction}

theorem start : (addFloor {} .origin).Coherent where
  origin_mem := by simp
  disjoint := by simp [addFloor]
  connected := by
    intro p member
    obtain rfl : Position.origin = p := by simpa using member
    exact ⟨0, .start⟩
  adjacent := by simp [addFloor]
  oxygen := by simp [addFloor]

theorem isKnown_origin (h : plan.Coherent) : plan.isKnown .origin :=
  (plan.isKnown_iff _).2 (.inl h.origin_mem)

theorem addWall (h : plan.Coherent) (member : p ∈ plan.floor)
    (new : ¬plan.isKnown (d.neighbour p)) : (plan.addWall (d.neighbour p)).Coherent where
  origin_mem := h.origin_mem
  disjoint := by
    intro q floor wall
    rw [mem_walls_addWall] at wall
    rcases wall with rfl | wall
    · exact new ((plan.isKnown_iff _).2 (.inl floor))
    · exact h.disjoint q floor wall
  connected := by
    intro q floor
    obtain ⟨n, path⟩ := h.connected q floor
    exact ⟨n, path.mono fun _ floor => floor⟩
  adjacent := by
    intro q wall
    rw [mem_walls_addWall] at wall
    rcases wall with rfl | wall
    · exact ⟨p, member, d, rfl⟩
    · exact h.adjacent q wall
  oxygen := h.oxygen

theorem addFloor (h : plan.Coherent) (member : p ∈ plan.floor)
    (new : ¬plan.isKnown (d.neighbour p)) {oxygen : Option Position}
    (found : oxygen = plan.oxygen ∨ oxygen = some (d.neighbour p)) :
    ({ plan.addFloor (d.neighbour p) with oxygen := oxygen } : FloorPlan).Coherent := by
  have kept : ∀ q ∈ plan.floor, q ∈ (plan.addFloor (d.neighbour p)).floor := by
    intro q floor
    simp [floor]
  refine ⟨kept _ h.origin_mem, ?_, ?_, ?_, ?_⟩
  · intro q floor wall
    rw [mem_floor_addFloor] at floor
    rcases floor with rfl | floor
    · exact new ((plan.isKnown_iff _).2 (.inr wall))
    · exact h.disjoint q floor wall
  · intro q floor
    rw [mem_floor_addFloor] at floor
    rcases floor with rfl | floor
    · obtain ⟨n, path⟩ := h.connected p member
      exact ⟨n + 1, .step d (path.mono kept) (by simp)⟩
    · obtain ⟨n, path⟩ := h.connected q floor
      exact ⟨n, path.mono kept⟩
  · intro q wall
    obtain ⟨r, floor, toward⟩ := h.adjacent q wall
    exact ⟨r, kept r floor, toward⟩
  · intro q here
    rcases found with rfl | rfl
    · obtain ⟨floor, elsewhere⟩ := h.oxygen q here
      exact ⟨kept q floor, elsewhere⟩
    · cases here
      exact ⟨by simp, fun same => new (same ▸ h.isKnown_origin)⟩

end Coherent

end FloorPlan

namespace Exploration

/-- The neighbours of a floor cell are known, unless its droid has still to look around. -/
structure Charted (e : Exploration) : Prop extends e.plan.Coherent where
  queued : ∀ cell ∈ e.queue, cell.1 ∈ e.plan.floor
  closed : ∀ p ∈ e.plan.floor,
    (∃ m, (p, m) ∈ e.queue) ∨ ∀ d : Direction, e.plan.isKnown (d.neighbour p)

namespace Charted

theorem start (m : Machine) : (start m).Charted where
  toCoherent := .start
  queued := by simp [Exploration.start]
  closed := by
    intro p member
    obtain rfl : Position.origin = p := by simpa [Exploration.start] using member
    exact .inl ⟨m, by simp [Exploration.start]⟩

theorem step (h : e.Charted) (step : Step e e₁) : e₁.Charted := by
  cases step with
  | @wall plan p m m₁ queue moves d new answers =>
    refine ⟨h.addWall (h.queued (p, m) (by simp)) new, h.queued, ?_⟩
    intro q floor
    refine (h.closed q floor).imp_right fun known d₁ => ?_
    exact (plan.isKnown_addWall _ _).2 (.inr (known d₁))
  | @floor plan p m m₁ queue moves d status oxygen new answers found =>
    refine ⟨h.addFloor (h.queued (p, m) (by simp)) new (found.imp And.right And.right), ?_, ?_⟩
    · intro cell member
      simp only [List.mem_cons, List.mem_append, List.not_mem_nil, or_false, ← or_assoc] at member
      rcases member with member | rfl
      · have floor := h.queued cell (List.mem_cons.2 member)
        simp [floor]
      · simp
    · intro q floor
      simp only [FloorPlan.mem_floor_addFloor] at floor
      rcases floor with rfl | floor
      · exact .inl ⟨m₁, by simp⟩
      · rcases h.closed q floor with ⟨m₂, member⟩ | known
        · refine .inl ⟨m₂, ?_⟩
          simp only [List.mem_cons, List.mem_append] at member ⊢
          exact member.imp_right .inl
        · exact .inr fun d₁ => (plan.isKnown_addFloor _ _).2 (.inr (known d₁))
  | @leave plan p m queue moves known =>
    refine ⟨h.toCoherent, fun cell member => h.queued cell (List.mem_cons_of_mem _ member), ?_⟩
    intro q floor
    rcases h.closed q floor with ⟨m₁, member⟩ | known₁
    · rcases List.mem_cons.1 member with same | member
      · cases same
        exact .inr known
      · exact .inl ⟨m₁, member⟩
    · exact .inr known₁

theorem steps (h : e.Charted) (steps : Steps e e₁) : e₁.Charted := by
  induction steps with
  | refl => exact h
  | tail _ step ih => exact ih.step step

theorem wellFormed {plan : FloorPlan} {moves : List Move} (h : Charted ⟨plan, [], moves⟩) :
    plan.WellFormed where
  toCoherent := h.toCoherent
  enclosed := by
    intro p floor d
    rcases h.closed p floor with ⟨m, member⟩ | known
    · cases member
    · exact (plan.isKnown_iff _).1 (known d)

end Charted

structure Tallied (m₀ : Machine) (e : Exploration) : Prop where
  arrives : ∀ cell ∈ e.queue, ∃ route, Droid.Arrives m₀ route cell.1 cell.2
  made : ∀ move ∈ e.moves, ∃ route, Droid.Arrives m₀ route move.position move.machine
  nodup : (e.moves.map Move.target).Nodup
  mem_iff : ∀ p, p ∈ e.moves.map Move.target ↔ e.plan.isKnown p ∧ p ≠ .origin
  count : e.moves.length + 1 = e.plan.floor.size + e.plan.walls.size

namespace Tallied

theorem start (m : Machine) : Tallied m (start m) where
  arrives := by
    intro cell member
    obtain rfl := List.mem_singleton.1 member
    exact ⟨[], .start⟩
  made := by simp [Exploration.start]
  nodup := by simp [Exploration.start]
  mem_iff := by
    intro p
    have known := FloorPlan.isKnown_addFloor {} .origin p
    simp only [Exploration.start, List.map_nil, List.not_mem_nil, known, false_iff]
    rintro ⟨same | before, elsewhere⟩
    · exact elsewhere same.symm
    · simp [FloorPlan.isKnown] at before
  count := by simp [Exploration.start, FloorPlan.addFloor, Std.TreeSet.size_insert]

theorem find {plan plan₁ : FloorPlan} {queue queue₁ : List (Position × Machine)}
    {moves : List Move} {d : Direction} (h : Tallied m₀ ⟨plan, (p, m) :: queue, moves⟩)
    (origin : plan.isKnown .origin) (new : ¬plan.isKnown (d.neighbour p))
    (known : ∀ q, plan₁.isKnown q ↔ d.neighbour p = q ∨ plan.isKnown q)
    (size : plan₁.floor.size + plan₁.walls.size = plan.floor.size + plan.walls.size + 1)
    (arrives : ∀ cell ∈ queue₁, ∃ route, Droid.Arrives m₀ route cell.1 cell.2) :
    Tallied m₀ ⟨plan₁, queue₁, moves ++ [⟨p, m, d⟩]⟩ where
  arrives := arrives
  made := by
    intro move member
    rcases List.mem_append.1 member with member | member
    · exact h.made move member
    · obtain rfl := List.mem_singleton.1 member
      exact h.arrives (p, m) (by simp)
  nodup := by
    rw [List.map_append, List.nodup_append]
    refine ⟨h.nodup, by simp, ?_⟩
    intro q member r member₁ same
    obtain rfl := List.mem_singleton.1 member₁
    rw [same] at member
    exact new ((h.mem_iff _).1 member).1
  mem_iff := by
    intro q
    have tried := h.mem_iff q
    have elsewhere : d.neighbour p = q → q ≠ .origin := by
      rintro rfl same
      exact new (same ▸ origin)
    rw [List.map_append, List.mem_append, tried, known]
    simp only [List.map_cons, List.map_nil, List.mem_singleton, Move.target]
    grind
  count := by
    have := h.count
    rw [List.length_append, List.length_singleton, size]
    simpa using this

theorem step (h : e.Tallied m₀) (charted : e.Charted) (step : Step e e₁) : e₁.Tallied m₀ := by
  cases step with
  | @wall plan p m m₁ queue moves d new answers =>
    refine h.find charted.isKnown_origin new (plan.isKnown_addWall _) ?_ h.arrives
    rw [FloorPlan.size_walls_addWall fun wall => new ((plan.isKnown_iff _).2 (.inr wall))]
    exact (Nat.add_assoc ..).symm
  | @floor plan p m m₁ queue moves d status oxygen new answers found =>
    refine h.find charted.isKnown_origin new (plan.isKnown_addFloor _) ?_ ?_
    · rw [FloorPlan.size_floor_addFloor fun floor => new ((plan.isKnown_iff _).2 (.inl floor))]
      exact Nat.add_right_comm ..
    · intro cell member
      simp only [List.mem_cons, List.mem_append, List.not_mem_nil, or_false, ← or_assoc] at member
      rcases member with member | rfl
      · exact h.arrives cell (List.mem_cons.2 member)
      · obtain ⟨route, arrives⟩ := h.arrives (p, m) (by simp)
        exact ⟨_, arrives.move answers (found.imp And.left And.left)⟩
  | leave known =>
    exact ⟨fun cell member => h.arrives cell (List.mem_cons_of_mem _ member), h.made, h.nodup,
      h.mem_iff, h.count⟩

theorem steps (h : e.Tallied m₀) (charted : e.Charted) (steps : Steps e e₁) : e₁.Tallied m₀ := by
  induction steps with
  | refl => exact h
  | tail before step ih => exact ih.step (charted.steps before) step

end Tallied

end Exploration

namespace Droid

/-- A survey that ends has a plan without gaps, and has called a machine for each cell on it but the
origin: that of a droid that stands next to the cell, with the move toward it. -/
theorem survey_wellFormed {m : Machine} {plan : FloorPlan} {rounds fuel : Nat}
    (h : (survey rounds m).value fuel = some (.ok plan)) :
    plan.WellFormed ∧
      ∃ moves : List Move,
        (survey rounds m).called fuel = moves.map Move.sent ∧
        moves.length = plan.floor.size + plan.walls.size - 1 ∧
        (moves.map Move.target).Nodup ∧
        (∀ p, p ∈ moves.map Move.target ↔
          (p ∈ plan.floor ∨ p ∈ plan.walls) ∧ p ≠ .origin) ∧
        ∀ move ∈ moves, ∃ route, Arrives m route move.position move.machine := by
  obtain ⟨moves, called, steps⟩ := steps_of_survey h
  have charted := (Exploration.Charted.start m).steps steps
  have tallied := (Exploration.Tallied.start m).steps (.start m) steps
  refine ⟨charted.wellFormed, moves, called, ?_, tallied.nodup, ?_, tallied.made⟩
  · have := tallied.count
    dsimp only at this
    omega
  · intro p
    rw [tallied.mem_iff, FloorPlan.isKnown_iff]

/-- Every first move finds oxygen and every later one a wall, whatever the cell. -/
def fickleDroid : Machine := .ofProgram [3, 20, 104, 2, 3, 20, 104, 0, 1105, 1, 4]

theorem survey_wellFormed_fickle :
    ∃ plan, (survey 6 fickleDroid).value 6 = some (.ok plan) ∧ plan.floor.size = 5 ∧
      plan.walls.size = 8 ∧ plan.oxygen = some ⟨1, 0⟩ ∧ plan.WellFormed ∧
      ((survey 6 fickleDroid).called 6).length = 12 := by
  obtain ⟨plan, ends, floor, walls, oxygen⟩ : ∃ plan : FloorPlan,
      (survey 6 fickleDroid).value 6 = some (.ok plan) ∧ plan.floor.size = 5 ∧
        plan.walls.size = 8 ∧ plan.oxygen = some ⟨1, 0⟩ := ⟨_, rfl, rfl, rfl, rfl⟩
  obtain ⟨wellFormed, moves, called, length, -⟩ := survey_wellFormed ends
  refine ⟨plan, ends, floor, walls, oxygen, wellFormed, ?_⟩
  rw [called, List.length_map, length, floor, walls]

end Droid

end WordMachine
