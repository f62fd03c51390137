import Mathlib.Data.List.Nodup
import Mathlib.Data.List.ProdSigma
import Mathlib.Order.Bounds.Image
import WordMachine.Grid.Rendering

namespace WordMachine

def Position.shift (d p : Position) : Position := ⟨p.x + d.x, p.y + d.y⟩

theorem Position.shift_injective (d : Position) : Function.Injective d.shift := by
  rintro ⟨x, y⟩ ⟨x₁, y₁⟩ same
  simpa [shift] using same

theorem Position.shift_surjective (d : Position) : Function.Surjective d.shift := by
  intro p
  exact ⟨⟨p.x - d.x, p.y - d.y⟩, by simp [shift]⟩

theorem Position.exists_shift_eq (p q : Position) : ∃ d : Position, d.shift p = q := by
  refine ⟨⟨q.x - p.x, q.y - p.y⟩, ?_⟩
  cases q
  simp only [shift, mk.injEq]
  omega

namespace Grid

structure IsBox (cells : Set Position) (low high : Position) : Prop where
  left : IsLeast (Position.x '' cells) low.x
  right : IsGreatest (Position.x '' cells) high.x
  top : IsLeast (Position.y '' cells) low.y
  bottom : IsGreatest (Position.y '' cells) high.y

def Within (low high p : Position) : Prop :=
  low.x ≤ p.x ∧ p.x ≤ high.x ∧ low.y ≤ p.y ∧ p.y ≤ high.y

theorem within_shift_iff {d low high p : Position} :
    Within (d.shift low) (d.shift high) (d.shift p) ↔ Within low high p := by
  simp [Within, Position.shift]

namespace IsBox

variable {cells : Set Position} {low high : Position}

theorem singleton (p : Position) : IsBox {p} p p := by
  constructor <;> simp

theorem insert (h : IsBox cells low high) (p : Position) :
    IsBox (insert p cells) ⟨min p.x low.x, min p.y low.y⟩ ⟨max p.x high.x, max p.y high.y⟩ := by
  constructor <;> rw [Set.image_insert_eq]
  · exact h.left.insert p.x
  · exact h.right.insert p.x
  · exact h.top.insert p.y
  · exact h.bottom.insert p.y

theorem shift (h : IsBox cells low high) (d : Position) :
    IsBox (d.shift '' cells) (d.shift low) (d.shift high) := by
  have along_x : Position.x '' (d.shift '' cells) = (· + d.x) '' (Position.x '' cells) := by
    simp only [Set.image_image, Position.shift]
  have along_y : Position.y '' (d.shift '' cells) = (· + d.y) '' (Position.y '' cells) := by
    simp only [Set.image_image, Position.shift]
  have mono (k : Int) : Monotone (· + k) := fun _ _ le => Int.add_le_add_right le k
  constructor
  · exact along_x ▸ (mono d.x).map_isLeast h.left
  · exact along_x ▸ (mono d.x).map_isGreatest h.right
  · exact along_y ▸ (mono d.y).map_isLeast h.top
  · exact along_y ▸ (mono d.y).map_isGreatest h.bottom

theorem unique {low₁ high₁ : Position} (h : IsBox cells low high) (h₁ : IsBox cells low₁ high₁) :
    low = low₁ ∧ high = high₁ := by
  have left := h.left.unique h₁.left
  have right := h.right.unique h₁.right
  have top := h.top.unique h₁.top
  have bottom := h.bottom.unique h₁.bottom
  cases low
  cases high
  simp_all

theorem within (h : IsBox cells low high) (member : p ∈ cells) : Within low high p :=
  ⟨h.left.2 ⟨p, member, rfl⟩, h.right.2 ⟨p, member, rfl⟩, h.top.2 ⟨p, member, rfl⟩,
    h.bottom.2 ⟨p, member, rfl⟩⟩

theorem nonempty (h : IsBox cells low high) : cells.Nonempty := h.left.nonempty.of_image

theorem low_le_high (h : IsBox cells low high) : low.x ≤ high.x ∧ low.y ≤ high.y := by
  obtain ⟨p, member⟩ := h.nonempty
  obtain ⟨left, right, top, bottom⟩ := h.within member
  exact ⟨left.trans right, top.trans bottom⟩

end IsBox

theorem bounds?_eq_none_iff {cells : List Position} : bounds? cells = none ↔ cells = [] := by
  cases cells with
  | nil => simp [bounds?]
  | cons p rest => cases bounds : bounds? rest <;> simp [bounds?, bounds]

theorem isBox_of_bounds? {cells : List Position} (h : bounds? cells = some (low, high)) :
    IsBox {p | p ∈ cells} low high := by
  induction cells generalizing low high with
  | nil => cases h
  | cons p rest ih =>
    rw [bounds?] at h
    cases bounds : bounds? rest with
    | none =>
      obtain rfl := bounds?_eq_none_iff.1 bounds
      rw [bounds] at h
      cases h
      simpa using IsBox.singleton p
    | some corners =>
      rw [bounds] at h
      cases h
      have members : {q | q ∈ p :: rest} = insert p {q | q ∈ rest} := by
        ext q
        simp
      rw [members]
      exact (ih bounds).insert p

theorem bounds?_eq_some_iff {cells : List Position} :
    bounds? cells = some (low, high) ↔ IsBox {p | p ∈ cells} low high := by
  refine ⟨isBox_of_bounds?, fun box => ?_⟩
  cases bounds : bounds? cells with
  | none =>
    obtain rfl := bounds?_eq_none_iff.1 bounds
    obtain ⟨p, member⟩ := box.nonempty
    cases member
  | some corners =>
    obtain ⟨rfl, rfl⟩ := box.unique (isBox_of_bounds? bounds)
    rfl

theorem exists_isBox {cells : List Position} (h : cells ≠ []) :
    ∃ low high, IsBox {p | p ∈ cells} low high := by
  obtain ⟨⟨low, high⟩, bounds⟩ := Option.ne_none_iff_exists'.1 (mt bounds?_eq_none_iff.1 h)
  exact ⟨low, high, isBox_of_bounds? bounds⟩

theorem render_congr {cells cells₁ : List Position} (h : ∀ p, p ∈ cells ↔ p ∈ cells₁)
    (glyph : Position → Char) : render cells glyph = render cells₁ glyph := by
  have same : {p | p ∈ cells} = {p | p ∈ cells₁} := Set.ext h
  have bounds : bounds? cells = bounds? cells₁ := by
    apply Option.ext
    rintro ⟨low, high⟩
    rw [bounds?_eq_some_iff, bounds?_eq_some_iff, same]
  rw [render, render, bounds]

section

variable {low high : Int}

@[simp] theorem length_span (low high : Int) : (span low high).length = (high - low + 1).toNat := by
  simp [span]

@[simp] theorem mem_span {x : Int} : x ∈ span low high ↔ low ≤ x ∧ x ≤ high := by
  simp only [span, List.mem_map, List.mem_range]
  constructor
  · rintro ⟨k, lt, rfl⟩
    omega
  · rintro ⟨le, le₁⟩
    exact ⟨(x - low).toNat, by omega, by omega⟩

theorem nodup_span (low high : Int) : (span low high).Nodup := by
  apply List.Nodup.map _ List.nodup_range
  intro k k₁ same
  dsimp only at same
  omega

theorem eq_of_getElem?_span {k : Nat} (h : (span low high)[k]? = some x) : x = low + k := by
  simp only [span, List.getElem?_map, Option.map_eq_some_iff] at h
  obtain ⟨j, place, rfl⟩ := h
  obtain ⟨lt, rfl⟩ := List.getElem?_eq_some_iff.1 place
  rw [List.getElem_range]

theorem span_shift (low high d : Int) :
    span (low + d) (high + d) = (span low high).map (· + d) := by
  have size : high + d - (low + d) + 1 = high - low + 1 := by omega
  rw [span, span, size, List.map_map]
  apply List.map_congr_left
  intro k _
  exact Int.add_right_comm low d k

theorem span_inj {high₁ : Int} (le : low ≤ high) (le₁ : low ≤ high₁)
    (h : (span low high).length = (span low high₁).length) : high = high₁ := by
  simp only [length_span] at h
  omega

end

def picture (glyph : Position → Char) (low high : Position) : List (List Char) :=
  (span low.y high.y).map fun y => (span low.x high.x).map fun x => glyph ⟨x, y⟩

theorem picture_congr {glyph glyph₁ : Position → Char}
    (h : ∀ p, Within low high p → glyph p = glyph₁ p) :
    picture glyph low high = picture glyph₁ low high := by
  apply List.map_congr_left
  intro y inside
  apply List.map_congr_left
  intro x inside₁
  rw [mem_span] at inside inside₁
  exact h ⟨x, y⟩ ⟨inside₁.1, inside₁.2, inside.1, inside.2⟩

theorem picture_shift (glyph : Position → Char) (low high d : Position) :
    picture glyph (d.shift low) (d.shift high) = picture (fun p => glyph (d.shift p)) low high := by
  simp [picture, Position.shift, span_shift, Function.comp_def]

theorem eq_of_picture_eq {glyph glyph₁ : Position → Char} {low high high₁ : Position}
    (le : low.x ≤ high.x ∧ low.y ≤ high.y) (le₁ : low.x ≤ high₁.x ∧ low.y ≤ high₁.y)
    (h : picture glyph low high = picture glyph₁ low high₁) :
    high = high₁ ∧ ∀ p, Within low high p → glyph p = glyph₁ p := by
  have height : high.y = high₁.y := by
    apply span_inj le.2 le₁.2
    simpa [picture] using congrArg List.length h
  rw [picture, picture, ← height, List.map_inj_left] at h
  have width : high.x = high₁.x := by
    apply span_inj le.1 le₁.1
    simpa using congrArg List.length (h low.y (mem_span.2 ⟨le_rfl, le.2⟩))
  obtain rfl : high = high₁ := by
    cases high
    simp_all
  refine ⟨rfl, ?_⟩
  rintro ⟨x, y⟩ ⟨left, right, top, bottom⟩
  have rows := h y (mem_span.2 ⟨top, bottom⟩)
  rw [List.map_inj_left] at rows
  exact rows x (mem_span.2 ⟨left, right⟩)

def positions (low high : Position) : List Position :=
  ((span low.y high.y).product (span low.x high.x)).map fun place => ⟨place.2, place.1⟩

theorem mem_positions : p ∈ positions low high ↔ Within low high p := by
  rw [positions, List.mem_map]
  constructor
  · rintro ⟨⟨y, x⟩, member, rfl⟩
    obtain ⟨inside, inside₁⟩ := List.pair_mem_product.1 member
    rw [mem_span] at inside inside₁
    exact ⟨inside₁.1, inside₁.2, inside.1, inside.2⟩
  · rintro ⟨left, right, top, bottom⟩
    have member := List.pair_mem_product.2 ⟨mem_span.2 ⟨top, bottom⟩, mem_span.2 ⟨left, right⟩⟩
    exact ⟨(p.y, p.x), member, rfl⟩

theorem nodup_positions (low high : Position) : (positions low high).Nodup := by
  apply List.Nodup.map _ ((nodup_span _ _).product (nodup_span _ _))
  rintro ⟨y, x⟩ ⟨y₁, x₁⟩ same
  cases same
  rfl

theorem flatten_picture (glyph : Position → Char) (low high : Position) :
    (picture glyph low high).flatten = (positions low high).map glyph := by
  simp [picture, positions, List.product, List.flatMap_def, Function.comp_def]

theorem countP_intercalate_newline {shown : Char → Bool} (h : shown '\n' = false)
    (rows : List (List Char)) :
    (['\n'].intercalate rows).countP shown = rows.flatten.countP shown := by
  induction rows with
  | nil => rfl
  | cons row rest ih =>
    cases rest with
    | nil => simp
    | cons next rest =>
      rw [List.intercalate_cons_cons, List.countP_append, List.countP_append, ih, List.flatten_cons,
        List.countP_append, List.countP_singleton, h]
      simp

section

variable {cells : List Position} {low high : Position} {glyph : Position → Char}

theorem render_of_isBox (box : IsBox {p | p ∈ cells} low high) (glyph : Position → Char) :
    render cells glyph = "\n".intercalate ((span low.y high.y).map (row glyph low high)) := by
  rw [render, bounds?_eq_some_iff.2 box]

theorem map_toList_row (glyph : Position → Char) (low high : Position) :
    ((span low.y high.y).map (row glyph low high)).map String.toList = picture glyph low high := by
  simp [picture, row, Function.comp_def]

theorem toList_render (box : IsBox {p | p ∈ cells} low high) (glyph : Position → Char) :
    (render cells glyph).toList = ['\n'].intercalate (picture glyph low high) := by
  rw [render_of_isBox box, String.toList_intercalate, map_toList_row]
  rfl

theorem splitOn_render (box : IsBox {p | p ∈ cells} low high) (h : ∀ p, glyph p ≠ '\n') :
    (render cells glyph).toList.splitOn '\n' = picture glyph low high := by
  rw [toList_render box]
  apply List.splitOn_intercalate
  · intro line member break_mem
    obtain ⟨y, -, rfl⟩ := List.mem_map.1 member
    obtain ⟨x, -, same⟩ := List.mem_map.1 break_mem
    exact h ⟨x, y⟩ same
  · have top : low.y ∈ span low.y high.y := mem_span.2 ⟨le_rfl, box.low_le_high.2⟩
    exact mt List.map_eq_nil_iff.1 (List.ne_nil_of_mem top)

/-- A text shows the rectangle with these corners: it consists of as many rows as the rectangle is
high, with a line break between them, and a row has a character for each position in it. -/
structure Shows (glyph : Position → Char) (low high : Position) (text : String)
    (rows : List String) : Prop where
  joined : text = "\n".intercalate rows
  lines : text.toList.splitOn '\n' = rows.map String.toList
  height : (rows.length : Int) = high.y - low.y + 1
  width : ∀ row ∈ rows, (row.length : Int) = high.x - low.x + 1
  symbol : ∀ (r c : Nat) row symbol, rows[r]? = some row → row.toList[c]? = some symbol →
    symbol = glyph ⟨low.x + c, low.y + r⟩

theorem shows_render (box : IsBox {p | p ∈ cells} low high) (h : ∀ p, glyph p ≠ '\n') :
    Shows glyph low high (render cells glyph) ((span low.y high.y).map (row glyph low high)) where
  joined := render_of_isBox box glyph
  lines := by rw [splitOn_render box h, map_toList_row]
  height := by
    have := box.low_le_high
    rw [List.length_map, length_span]
    omega
  width := by
    intro line member
    obtain ⟨y, -, rfl⟩ := List.mem_map.1 member
    have := box.low_le_high
    rw [row, String.length_ofList, List.length_map, length_span]
    omega
  symbol := by
    intro r c line symbol here there
    simp only [List.getElem?_map, Option.map_eq_some_iff] at here
    obtain ⟨y, place, rfl⟩ := here
    simp only [row, String.toList_ofList, List.getElem?_map, Option.map_eq_some_iff] at there
    obtain ⟨x, place₁, rfl⟩ := there
    rw [eq_of_getElem?_span place, eq_of_getElem?_span place₁]

example : render [⟨1, -1⟩, ⟨-1, 0⟩] (fun p => if p.x + p.y = 0 then 'o' else '.') = "..o\n.o." := by
  decide

theorem countP_render {shown : Char → Bool} {found : List Position} (no_break : shown '\n' = false)
    (nodup : found.Nodup) (mem_iff : ∀ p, p ∈ found ↔ shown (glyph p))
    (inside : ∀ p ∈ found, p ∈ cells) :
    (render cells glyph).toList.countP shown = found.length := by
  by_cases empty : cells = []
  · obtain rfl : found = [] := List.eq_nil_iff_forall_not_mem.2 (by simpa [empty] using inside)
    rw [empty]
    rfl
  obtain ⟨low, high, box⟩ := exists_isBox empty
  rw [toList_render box, countP_intercalate_newline no_break, flatten_picture, List.countP_map,
    List.countP_eq_length_filter]
  apply List.Perm.length_eq
  rw [List.perm_ext_iff_of_nodup ((nodup_positions low high).filter _) nodup]
  intro p
  rw [List.mem_filter, mem_positions, mem_iff]
  refine ⟨And.right, fun shows => ⟨box.within (inside p ((mem_iff p).2 shows)), shows⟩⟩

theorem render_ne_empty (h : cells ≠ []) (no_break : ∀ p, glyph p ≠ '\n') :
    render cells glyph ≠ "" := by
  obtain ⟨low, high, box⟩ := exists_isBox h
  intro empty
  have line : picture glyph low high = [[]] := by
    rw [← splitOn_render box no_break, empty]
    rfl
  have width : ((span low.x high.x).map fun x => glyph ⟨x, low.y⟩) = [] := by
    apply List.mem_singleton.1
    rw [← line]
    exact List.mem_map_of_mem (mem_span.2 ⟨le_rfl, box.low_le_high.2⟩)
  have left : low.x ∈ span low.x high.x := mem_span.2 ⟨le_rfl, box.low_le_high.1⟩
  rw [List.map_eq_nil_iff.1 width] at left
  cases left

end

def mask (cells : List Position) (p : Position) : Char := if p ∈ cells then '#' else '.'

theorem mask_ne_newline (cells : List Position) (p : Position) : mask cells p ≠ '\n' := by
  unfold mask
  split <;> decide

theorem mask_eq_mask_iff {cells cells₁ : List Position} :
    mask cells p = mask cells₁ q ↔ (p ∈ cells ↔ q ∈ cells₁) := by
  by_cases left : p ∈ cells <;> by_cases right : q ∈ cells₁ <;> simp [mask, left, right]

theorem mem_shift_iff {cells cells₁ : List Position} {d : Position}
    (h : {p | p ∈ cells₁} = d.shift '' {p | p ∈ cells}) (p : Position) :
    d.shift p ∈ cells₁ ↔ p ∈ cells := by
  have member : d.shift p ∈ {p | p ∈ cells₁} ↔ d.shift p ∈ d.shift '' {p | p ∈ cells} := by rw [h]
  exact member.trans d.shift_injective.mem_set_image

theorem render_mask_of_shift {cells cells₁ : List Position} {d : Position}
    (h : {p | p ∈ cells₁} = d.shift '' {p | p ∈ cells}) :
    render cells (mask cells) = render cells₁ (mask cells₁) := by
  by_cases empty : cells = []
  · have empty₁ : cells₁ = [] := by
      apply List.eq_nil_iff_forall_not_mem.2
      intro p member
      have : p ∈ d.shift '' {p | p ∈ cells} := h ▸ member
      simp [empty] at this
    rw [empty, empty₁]
  obtain ⟨low, high, box⟩ := exists_isBox empty
  have box₁ : IsBox {p | p ∈ cells₁} (d.shift low) (d.shift high) := h ▸ box.shift d
  have pictures : picture (mask cells) low high =
      picture (mask cells₁) (d.shift low) (d.shift high) := by
    rw [picture_shift]
    exact picture_congr fun p _ => mask_eq_mask_iff.2 (mem_shift_iff h p).symm
  rw [← String.toList_inj, toList_render box, toList_render box₁, pictures]

theorem exists_shift_of_render_mask {cells cells₁ : List Position} (filled : cells ≠ [])
    (filled₁ : cells₁ ≠ []) (h : render cells (mask cells) = render cells₁ (mask cells₁)) :
    ∃ d : Position, {p | p ∈ cells₁} = d.shift '' {p | p ∈ cells} := by
  obtain ⟨low, high, box⟩ := exists_isBox filled
  obtain ⟨low₁, high₁, box₁⟩ := exists_isBox filled₁
  -- The shift takes the upper left corner of one box to that of the other.
  obtain ⟨d, rfl⟩ := low.exists_shift_eq low₁
  obtain ⟨high₂, rfl⟩ := d.shift_surjective high₁
  have le₂ : low.x ≤ high₂.x ∧ low.y ≤ high₂.y := by
    simpa [Position.shift] using box₁.low_le_high
  have pictures : picture (mask cells) low high =
      picture (fun p => mask cells₁ (d.shift p)) low high₂ := by
    rw [← splitOn_render box (mask_ne_newline cells), h, ← picture_shift,
      splitOn_render box₁ (mask_ne_newline cells₁)]
  obtain ⟨rfl, marks⟩ := eq_of_picture_eq box.low_le_high le₂ pictures
  refine ⟨d, Set.ext fun p => ?_⟩
  obtain ⟨q, rfl⟩ := d.shift_surjective p
  have marked (inside : Within low high q) : q ∈ cells ↔ d.shift q ∈ cells₁ :=
    mask_eq_mask_iff.1 (marks q inside)
  rw [d.shift_injective.mem_set_image]
  constructor
  · intro member
    exact (marked (within_shift_iff.1 (box₁.within member))).2 member
  · intro member
    exact (marked (box.within member)).1 member

theorem render_mask_eq_iff {cells cells₁ : List Position} :
    render cells (mask cells) = render cells₁ (mask cells₁) ↔
      ∃ d : Position, {p | p ∈ cells₁} = d.shift '' {p | p ∈ cells} := by
  refine ⟨fun h => ?_, fun ⟨d, h⟩ => render_mask_of_shift h⟩
  by_cases empty : cells = []
  · by_cases empty₁ : cells₁ = []
    · exact ⟨.origin, by simp [empty, empty₁]⟩
    · rw [empty] at h
      exact absurd h.symm (render_ne_empty empty₁ (mask_ne_newline cells₁))
  · by_cases empty₁ : cells₁ = []
    · rw [empty₁] at h
      exact absurd h (render_ne_empty empty (mask_ne_newline cells))
    · exact exists_shift_of_render_mask empty empty₁ h

end Grid

end WordMachine
