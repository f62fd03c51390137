import WordMachine.Proofs.Device.Intake
import WordMachine.Proofs.Device.Playing
import WordMachine.Proofs.Journal

namespace WordMachine

namespace Tile

theorem isSome_ofWord? (id : Word) : (ofWord? id).isSome ↔ 0 ≤ id ∧ id ≤ 4 := by
  rw [Int64.le_iff_toInt_le, Int64.le_iff_toInt_le]
  change _ ↔ 0 ≤ id.toInt ∧ id.toInt ≤ 4
  unfold ofWord?
  split
  case h_6 => simp_all; omega
  all_goals simp [*]

end Tile

namespace Screen

open Cabinet (scorePosition)
open Journal (latest?)

def records : List Word → List (Position × Word)
  | x :: y :: id :: rest => (⟨x.toInt, y.toInt⟩, id) :: records rest
  | _ => []

def isDrawable (record : Position × Word) : Bool :=
  record.1 = scorePosition ∨ 0 ≤ record.2 ∧ record.2 ≤ 4

def drawn (records : List (Position × Word)) : List (Position × Word) :=
  records.takeWhile isDrawable

def tileOf (id : Word) : Tile := (Tile.ofWord? id).getD .empty

def tileAt (s : Screen) (p : Position) : Tile := s.tiles.getD p .empty

def put (s : Screen) (record : Position × Word) : Screen :=
  if record.1 = scorePosition then { s with score := record.2 }
  else { s with tiles := s.tiles.insert record.1 (tileOf record.2) }

def obey (s : Screen) (record : Position × Word) : Screen × Except DeviceError Unit :=
  if isDrawable record then (s.put record, .ok ()) else (s, .error (.unknownTile record.2))

def intake : Intake Screen (Position × Word) := ⟨3, records, obey⟩

theorem obeyAll_fst (s : Screen) (records : List (Position × Word)) :
    (intake.obeyAll s records).1 = (drawn records).foldl put s := by
  induction records generalizing s with
  | nil => rfl
  | cons record rest ih =>
    by_cases drawable : isDrawable record
    · have obeys : intake.obey s record = (s.put record, .ok ()) := if_pos drawable
      rw [Intake.obeyAll_cons_of_ok obeys, ih]
      simp [drawn, drawable]
    · have refuses : intake.obey s record = (s, .error (.unknownTile record.2)) := if_neg drawable
      rw [Intake.obeyAll_cons_of_error refuses]
      simp [drawn, drawable]

theorem score_foldl_put (s : Screen) (records : List (Position × Word)) :
    (records.foldl put s).score = (latest? records scorePosition).getD s.score := by
  induction records generalizing s with
  | nil => rfl
  | cons record rest ih =>
    rw [List.foldl_cons, ih, Journal.getD_latest?_cons]
    by_cases score : record.1 = scorePosition <;> simp [put, score]

theorem tileAt_put (s : Screen) (record : Position × Word) (p : Position) :
    (s.put record).tileAt p =
      if p ≠ scorePosition ∧ record.1 = p then tileOf record.2 else s.tileAt p := by
  unfold put
  split
  · next score =>
    have elsewhere : ¬(p ≠ scorePosition ∧ record.1 = p) := by
      rintro ⟨ne, rfl⟩
      exact ne score
    rw [if_neg elsewhere]
    rfl
  · next tile =>
    have here : p ≠ scorePosition ∧ record.1 = p ↔ record.1 = p := by
      constructor
      · exact And.right
      · rintro rfl
        exact ⟨tile, rfl⟩
    simp [here, tileAt, Std.TreeMap.getD_insert]

theorem tileAt_foldl_put (s : Screen) (records : List (Position × Word)) (p : Position) :
    (records.foldl put s).tileAt p =
      if p = scorePosition then s.tileAt p
      else ((latest? records p).map tileOf).getD (s.tileAt p) := by
  induction records generalizing s with
  | nil => simp
  | cons record rest ih =>
    rw [List.foldl_cons, ih, tileAt_put, Journal.getD_map_latest?_cons]
    by_cases score : p = scorePosition <;> simp [score]

theorem nodup_cells (s : Screen) (tile : Tile) : (s.cells tile).Nodup := by
  have keys : (s.tiles.toList.map Prod.fst).Nodup := by
    rw [Std.TreeMap.map_fst_toList_eq_keys]
    exact Std.TreeMap.nodup_keys
  exact keys.sublist (List.filter_sublist.map _)

theorem mem_cells_block_iff {s : Screen} : p ∈ s.cells .block ↔ s.tileAt p = .block := by
  rw [mem_cells, tileAt, Std.TreeMap.getD_eq_getD_getElem?]
  cases s.tiles[p]? <;> simp

end Screen

namespace Cabinet

open Journal (latest?)

section

variable {m : Machine} {s : Screen} {x y id : Word}

theorem drawAll_of_isDrawable (h : Screen.isDrawable (⟨x.toInt, y.toInt⟩, id)) (rest : List Word) :
    (ofScreen m s).drawAll (x :: y :: id :: rest) =
      (ofScreen m (s.put (⟨x.toInt, y.toInt⟩, id))).drawAll rest := by
  by_cases score : (⟨x.toInt, y.toInt⟩ : Position) = scorePosition
  · simp [drawAll, ofScreen, Screen.put, score]
  · have known : (Tile.ofWord? id).isSome := by
      rw [Tile.isSome_ofWord?]
      simpa [Screen.isDrawable, score] using h
    obtain ⟨tile, known⟩ := Option.isSome_iff_exists.1 known
    simp [drawAll, ofScreen, Screen.put, Screen.tileOf, score, known]

theorem drawAll_of_not (h : ¬Screen.isDrawable (⟨x.toInt, y.toInt⟩, id)) (rest : List Word) :
    (ofScreen m s).drawAll (x :: y :: id :: rest) =
      (ofScreen m s, .error (.unknownTile id)) := by
  obtain ⟨tile, unknown⟩ : (⟨x.toInt, y.toInt⟩ : Position) ≠ scorePosition ∧
      ¬(Tile.ofWord? id).isSome := by
    rw [Tile.isSome_ofWord?]
    simpa [Screen.isDrawable] using h
  rw [Option.not_isSome_iff_eq_none] at unknown
  simp [drawAll, tile, unknown]

end

theorem drawAll_ofScreen (m : Machine) (s : Screen) : (output : List Word) →
    (ofScreen m s).drawAll output =
      (ofScreen m (Screen.intake.obeyAll s (Screen.records output)).1,
        (Screen.intake.obeyAll s (Screen.records output)).2)
  | [] => rfl
  | [_] => rfl
  | [_, _] => rfl
  | x :: y :: id :: rest => by
    by_cases drawable : Screen.isDrawable (⟨x.toInt, y.toInt⟩, id)
    · rw [drawAll_of_isDrawable drawable, drawAll_ofScreen m _ rest, Screen.records,
        Intake.obeyAll_cons_of_ok (if_pos drawable)]
    · rw [drawAll_of_not drawable, Screen.records, Intake.obeyAll_cons_of_error (if_neg drawable)]

theorem drawBatch_ofScreen (m : Machine) (s : Screen) (output : List Word) :
    (ofScreen m s).drawBatch output =
      (ofScreen m (Screen.intake.take s ⟨m, .ok output⟩).1,
        (Screen.intake.take s ⟨m, .ok output⟩).2) := by
  unfold drawBatch
  split
  · next part =>
    rw [Intake.take_of_part rfl part]
    rfl
  · next whole =>
    rw [Intake.take_of_whole rfl (Decidable.not_not.1 whole)]
    exact drawAll_ofScreen m s output

def proceed (scan : Scan) (joystick : Joystick) (fuel round : Nat) (c : Cabinet) :
    Session (Cabinet × Except DeviceError Word) :=
  if c.machine.isHalted then do
    Session.log (.gameOver c.score c.blocks)
    return (c, .ok c.score)
  else
    match c.deflection scan round joystick with
    | .error e => return (c, .error e)
    | .ok w => runFrom scan joystick fuel (round + 1) { c with machine := c.machine.enqueue [w] }

def resume (scan : Scan) (joystick : Joystick) (fuel round : Nat) (s : Screen) (r : Reply) :
    Session (Cabinet × Except DeviceError Word) :=
  match Screen.intake.take s r with
  | (s, .ok ()) => proceed scan joystick fuel round (ofScreen r.machine s)
  | (s, .error e) => pure (ofScreen r.machine s, .error e)

theorem runFrom_succ (scan : Scan) (joystick : Joystick) (fuel round : Nat) (c : Cabinet) :
    runFrom scan joystick (fuel + 1) round c =
      Session.call c.machine >>= resume scan joystick fuel round c.screen := by
  rw [runFrom]
  congr 1
  funext r
  obtain ⟨m, result⟩ := r
  cases result with
  | error cause =>
    rw [resume, Intake.take_of_error rfl]
    rfl
  | ok output =>
    have draw : drawBatch { c with machine := m } output = _ :=
      drawBatch_ofScreen m c.screen output
    have fed (c : Cabinet) (w : Word) : c.machine.feed [w] = .ok (c.machine.enqueue [w]) :=
      Machine.feed_eq_enqueue _ (by simp)
    simp only [draw, fed, resume]
    rcases Screen.intake.take c.screen ⟨m, .ok output⟩ with ⟨s₁, taken⟩
    cases taken <;> rfl

def Steers (scan : Scan) (joystick : Joystick) (round : Nat) (s : Screen) (w : Word) : Prop :=
  ∀ m, (ofScreen m s).deflection scan round joystick = .ok w

theorem course_of_runFrom {c q : Cabinet} {scan : Scan} {round : Nat}
    (h : (runFrom scan joystick rounds round c).value fuel = some (q, result)) :
    (∃ taken, Screen.intake.Course (Steers scan joystick) round c.machine c.screen
      ((runFrom scan joystick rounds round c).replies fuel) q.screen taken) ∧
      ∀ score, result = .ok score → score = q.score := by
  induction rounds generalizing round c with
  | zero => cases h
  | succ rounds ih =>
    rw [runFrom_succ, Session.value_bind, Session.value_call] at h
    obtain ⟨r, call, h⟩ := Option.bind_eq_some_iff.1 h
    rw [runFrom_succ, Session.replies_call_bind call]
    unfold resume at h ⊢
    rcases taken : Screen.intake.take c.screen r with ⟨s₁, result₁⟩
    rw [taken] at h
    cases result₁ with
    | error e =>
      cases h
      exact ⟨⟨_, .stop ⟨fuel, call⟩ taken⟩, by simp⟩
    | ok =>
      dsimp only at h ⊢
      unfold proceed at h ⊢
      split at h
      · next halted =>
        cases h
        rw [if_pos halted]
        exact ⟨⟨_, .last ⟨fuel, call⟩ taken⟩, by simp⟩
      · next running =>
        rw [if_neg running]
        cases deflection : (ofScreen r.machine s₁).deflection scan round joystick with
        | error e =>
          rw [deflection] at h
          cases h
          exact ⟨⟨_, .last ⟨fuel, call⟩ taken⟩, by simp⟩
        | ok w =>
          rw [deflection] at h
          obtain ⟨⟨result₁, course⟩, last⟩ := ih h
          exact ⟨⟨result₁, .round ⟨fuel, call⟩ taken (fun _ => deflection) course⟩, last⟩

/-- Whatever the machine puts out and however the game ends, each call but the first has been fed
what the joystick says, and the cabinet shows the records that were drawn: the last score, the last
tile at each position, and as many blocks as there are positions with a block on top. A game that
comes to a good end gives the score shown. -/
theorem runFrom_shows_records (m : Machine) (scan : Scan) (joystick : Joystick) (rounds fuel : Nat)
    (q : Cabinet) (result : Except DeviceError Word)
    (value : (runFrom scan joystick rounds 0 { machine := m }).value fuel = some (q, result)) :
    let replies := (runFrom scan joystick rounds 0 { machine := m }).replies fuel
    let drawn := Screen.drawn (replies.flatMap Screen.intake.recordsIn)
    (∃ taken, Screen.intake.Course (Steers scan joystick) 0 m ⟨∅, 0⟩ replies q.screen taken) ∧
    q.score = (latest? drawn scorePosition).getD 0 ∧
    (∀ p, q.tileAt p = if p = scorePosition then .empty
      else ((latest? drawn p).map Screen.tileOf).getD .empty) ∧
    q.blocks = ((drawn.map Prod.fst).filter fun p =>
      p ≠ scorePosition ∧ (latest? drawn p).map Screen.tileOf = some .block).dedup.length ∧
    ∀ score, result = .ok score → score = q.score := by
  intro replies drawn
  obtain ⟨⟨taken, course⟩, last⟩ := course_of_runFrom value
  have left : q.screen = drawn.foldl Screen.put ⟨∅, 0⟩ := by
    rw [course.left_eq, Screen.obeyAll_fst]
    rfl
  have tiles (p : Position) : q.tileAt p = if p = scorePosition then .empty
      else ((latest? drawn p).map Screen.tileOf).getD .empty := by
    change q.screen.tileAt p = _
    rw [left, Screen.tileAt_foldl_put]
    rfl
  refine ⟨⟨taken, course⟩, ?_, tiles, ?_, last⟩
  · change q.screen.score = _
    rw [left, Screen.score_foldl_put]
  · have length : q.blocks = (q.screen.cells .block).length := (List.length_map _).symm
    rw [length]
    apply Journal.length_eq_length_dedup (q.screen.nodup_cells .block)
    intro p
    rw [Screen.mem_cells_block_iff]
    change q.tileAt p = .block ↔ _
    rw [tiles, List.mem_filter]
    by_cases score : p = scorePosition
    · simp [score]
    · cases entry : latest? drawn p with
      | none => simp [score]
      | some id =>
        have member := Journal.mem_keys_of_latest? entry
        simp only [member, true_and]
        simp [score]

/-- A block is drawn over and the score is set twice, once to a word that would be no tile. The
tile behind that is not known, so that the block after it is not drawn. -/
theorem runFrom_shows_records_unknown_tile :
    let m : Machine := .ofProgram [104, 1, 104, 0, 104, 2, 104, -1, 104, 0, 104, 2, 104, 1, 104, 5,
      104, 2, 3, 70, 104, 1, 104, 0, 104, 1, 104, -1, 104, 0, 104, 9, 104, 3, 104, 3, 104, 5,
      104, 4, 104, 4, 104, 2, 99]
    ∃ q, (runFrom .byPosition .neutral 2 0 { machine := m }).value 30 =
        some (q, .error (.unknownTile 5)) ∧
      q.score = 9 ∧ q.tileAt ⟨1, 0⟩ = .wall ∧ q.tileAt ⟨4, 4⟩ = .empty ∧ q.blocks = 1 := by
  intro m
  have value : ((runFrom .byPosition .neutral 2 0 { machine := m }).value 30).map Prod.snd =
      some (.error (.unknownTile 5)) := by
    subst m
    rfl
  obtain ⟨⟨q, result⟩, value, rfl⟩ := Option.map_eq_some_iff.1 value
  have drawn : Screen.drawn
      (((runFrom .byPosition .neutral 2 0 { machine := m }).replies 30).flatMap
        Screen.intake.recordsIn) =
      [(⟨1, 0⟩, 2), (scorePosition, 2), (⟨1, 5⟩, 2), (⟨1, 0⟩, 1), (scorePosition, 9)] := by
    decide +kernel
  obtain ⟨-, score, tiles, blocks, -⟩ :=
    runFrom_shows_records m .byPosition .neutral 2 30 q _ value
  simp only [drawn] at score tiles blocks
  refine ⟨q, value, score.trans (by decide), (tiles _).trans (by decide),
    (tiles _).trans (by decide), blocks.trans (by decide)⟩

end Cabinet

end WordMachine
