import WordMachine.Device.Painter
import WordMachine.Proofs.Device.Exploration
import WordMachine.Proofs.Grid.Rendering

namespace WordMachine

namespace Painter

def whites (p : Painter) : Set Position := {r | p.isWhite r}

theorem setOf_mem_toList (p : Painter) : {r | r ∈ p.white.toList} = p.whites := by
  ext r
  simp [whites, isWhite]

theorem render_eq_mask (p : Painter) :
    p.render = Grid.render p.white.toList (Grid.mask p.white.toList) := by
  unfold render
  congr 1
  funext r
  simp [isWhite, Grid.mask]

theorem render_eq_iff {p q : Painter} :
    p.render = q.render ↔ ∃ d : Position, q.whites = d.shift '' p.whites := by
  rw [render_eq_mask, render_eq_mask, Grid.render_mask_eq_iff, setOf_mem_toList, setOf_mem_toList]

end Painter

namespace FloorPlan

def floorSymbols : List Char := ['S', 'O', '.']

variable {plan : FloorPlan} {p : Position}

theorem symbol_eq_wall_iff : plan.symbol p = '#' ↔ p ∈ plan.walls := by
  unfold symbol
  split_ifs <;> simp_all

namespace Coherent

/-! The oxygen and the origin lie on different cells of the floor, so that what comes first in
`symbol` takes nothing from what comes later. -/

theorem symbol_eq_oxygen_iff (h : plan.Coherent) : plan.symbol p = 'O' ↔ plan.oxygen = some p := by
  have on_floor (found : plan.oxygen = some p) : p ∉ plan.walls :=
    h.disjoint p (h.oxygen p found).1
  unfold symbol
  split_ifs <;> simp_all

theorem symbol_eq_start_iff (h : plan.Coherent) : plan.symbol p = 'S' ↔ p = .origin := by
  have no_wall (wall : p ∈ plan.walls) : p ≠ .origin := by
    rintro rfl
    exact h.disjoint _ h.origin_mem wall
  have no_oxygen (found : plan.oxygen = some p) : p ≠ .origin := (h.oxygen p found).2
  unfold symbol
  split_ifs <;> simp_all

theorem symbol_mem_floorSymbols_iff (h : plan.Coherent) :
    plan.symbol p ∈ floorSymbols ↔ p ∈ plan.floor := by
  have open_floor := h.disjoint p
  have origin := h.origin_mem
  have oxygen (found : plan.oxygen = some p) : p ∈ plan.floor := (h.oxygen p found).1
  unfold symbol
  split_ifs <;> simp_all [floorSymbols]

end Coherent

theorem countP_render {shown : Char → Bool} (no_break : shown '\n' = false)
    {found : List Position} (nodup : found.Nodup) (mem_iff : ∀ p, p ∈ found ↔ shown (plan.symbol p))
    (known : ∀ p ∈ found, plan.isKnown p) : plan.render.toList.countP shown = found.length := by
  apply Grid.countP_render no_break nodup mem_iff
  intro p member
  have := (plan.isKnown_iff p).1 (known p member)
  simpa [or_comm] using this

theorem Coherent.count_render (h : plan.Coherent) :
    plan.render.toList.count '#' = plan.walls.size ∧
      plan.render.toList.count 'S' = 1 ∧
      plan.render.toList.count 'O' = plan.oxygen.toList.length ∧
      plan.render.toList.countP (· ∈ floorSymbols) = plan.floor.size := by
  have floor (p : Position) (member : p ∈ plan.floor) : plan.isKnown p :=
    (plan.isKnown_iff p).2 (.inl member)
  have wall (p : Position) (member : p ∈ plan.walls) : plan.isKnown p :=
    (plan.isKnown_iff p).2 (.inr member)
  refine ⟨?_, ?_, ?_, ?_⟩
  · rw [← Std.TreeSet.length_toList]
    apply countP_render rfl (Position.nodup_toList plan.walls)
    · simp [symbol_eq_wall_iff]
    · simpa using wall
  · apply countP_render rfl (List.nodup_singleton .origin)
    · simp [h.symbol_eq_start_iff]
    · simpa using floor _ h.origin_mem
  · apply countP_render rfl
    · cases plan.oxygen <;> simp
    · simp [h.symbol_eq_oxygen_iff]
    · intro p member
      exact floor p (h.oxygen p (Option.mem_toList.1 member)).1
  · rw [← Std.TreeSet.length_toList]
    apply countP_render (by decide) (Position.nodup_toList plan.floor)
    · simp [h.symbol_mem_floorSymbols_iff]
    · simpa using floor

end FloorPlan

/-- A rendering shows each position of the smallest rectangle around its cells, whatever their
order. Painters look the same just if their white panels are a shift apart, and on the plan of a
survey every wall, the origin, the oxygen and the rest of the floor can be seen. -/
theorem renderings_are_faithful :
    (∀ glyph, Grid.render [] glyph = "") ∧
    (∀ (cells : List Position) (glyph : Position → Char), cells ≠ [] → (∀ p, glyph p ≠ '\n') →
      ∃ low high, Grid.IsBox {p | p ∈ cells} low high ∧
        ∃ rows, Grid.Shows glyph low high (Grid.render cells glyph) rows) ∧
    (∀ (cells cells₁ : List Position) glyph, (∀ p, p ∈ cells ↔ p ∈ cells₁) →
      Grid.render cells glyph = Grid.render cells₁ glyph) ∧
    (∀ p q : Painter,
      p.render = q.render ↔ ∃ d : Position, q.whites = d.shift '' p.whites) ∧
    ∀ (m : Machine) rounds fuel (plan : FloorPlan),
      (Droid.survey rounds m).value fuel = some (.ok plan) →
        plan.render.toList.count '#' = plan.walls.size ∧
        plan.render.toList.count 'S' = 1 ∧
        plan.render.toList.count 'O' = (if plan.oxygen.isSome then 1 else 0) ∧
        plan.render.toList.countP (· ∈ FloorPlan.floorSymbols) = plan.floor.size := by
  refine ⟨fun glyph => rfl, ?_, ?_, fun p q => Painter.render_eq_iff, ?_⟩
  · intro cells glyph filled no_break
    obtain ⟨low, high, box⟩ := Grid.exists_isBox filled
    exact ⟨low, high, box, _, Grid.shows_render box no_break⟩
  · intro cells cells₁ glyph same
    exact Grid.render_congr same glyph
  · intro m rounds fuel plan ends
    obtain ⟨moves, -, steps⟩ := Droid.steps_of_survey ends
    have coherent := ((Exploration.Charted.start m).steps steps).toCoherent
    obtain ⟨walls, start, oxygen, floor⟩ := coherent.count_render
    refine ⟨walls, start, oxygen.trans ?_, floor⟩
    cases plan.oxygen <;> rfl

theorem renderings_are_faithful_slope :
    let painter (white : List Position) : Painter :=
      { machine := .ofProgram [], white := .ofList white }
    (painter [⟨0, 0⟩, ⟨1, 1⟩]).render = (painter [⟨-2, 6⟩, ⟨-3, 5⟩]).render ∧
      (painter [⟨0, 0⟩, ⟨1, 1⟩]).render ≠ (painter [⟨0, 1⟩, ⟨1, 0⟩]).render ∧
      ∃ plan, (Droid.survey 6 Droid.fickleDroid).value 6 = some (.ok plan) ∧
        plan.render.toList.count '#' = 8 ∧ plan.render.toList.count 'S' = 1 ∧
        plan.render.toList.count 'O' = 1 ∧
        plan.render.toList.countP (· ∈ FloorPlan.floorSymbols) = 5 := by
  intro painter
  obtain ⟨-, -, -, painters, plans⟩ := renderings_are_faithful
  have whites (a b : Position) : (painter [a, b]).whites = {a, b} := by
    ext p
    simp [painter, Painter.whites, Painter.isWhite]
  simp only [ne_eq, painters, whites, Set.image_pair]
  refine ⟨⟨⟨-3, 5⟩, Set.pair_comm _ _⟩, ?_, ?_⟩
  · rintro ⟨d, same⟩
    simp only [Set.pair_eq_pair_iff, Position.shift, Position.mk.injEq] at same
    omega
  · obtain ⟨plan, ends, floor, walls, oxygen⟩ : ∃ plan : FloorPlan,
        (Droid.survey 6 Droid.fickleDroid).value 6 = some (.ok plan) ∧ plan.floor.size = 5 ∧
          plan.walls.size = 8 ∧ plan.oxygen = some ⟨1, 0⟩ := ⟨_, rfl, rfl, rfl, rfl⟩
    have counts := plans _ _ _ plan ends
    rw [floor, walls, oxygen] at counts
    exact ⟨plan, ends, counts⟩

end WordMachine
