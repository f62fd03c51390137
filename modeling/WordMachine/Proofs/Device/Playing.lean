import WordMachine.Device.Cabinet
import WordMachine.Proofs.Device.ClosedLoop
import WordMachine.Proofs.Session

namespace WordMachine

structure Screen where
  tiles : Std.TreeMap Position Tile
  score : Word

inductive Pending
  | nothing
  | column (x : Word)
  | position (x y : Word)

namespace Screen

def draw? (s : Screen) (x y id : Word) : Option Screen :=
  if x = -1 ∧ y = 0 then some { s with score := id }
  else
    (Tile.ofWord? id).map fun tile =>
      { s with tiles := s.tiles.insert ⟨x.toInt, y.toInt⟩ tile }

def take? : Screen × Pending → Word → Option (Screen × Pending)
  | (s, .nothing), x => some (s, .column x)
  | (s, .column x), y => some (s, .position x y)
  | (s, .position x y), id => (s.draw? x y id).map fun s => (s, .nothing)

def tilt (ball paddle : Position) : Word :=
  if paddle.x < ball.x then 1 else if ball.x < paddle.x then -1 else 0

def cells (s : Screen) (tile : Tile) : List Position :=
  (s.tiles.toList.filter fun (_, t) => t = tile).map Prod.fst

def tilts (s : Screen) : List Word :=
  (s.cells .ball).flatMap fun ball => (s.cells .paddle).map (tilt ball)

def isUnanimous (s : Screen) : Bool := s.tilts.all fun w => s.tilts.all fun w₁ => w == w₁

def isNear (s : Screen) : Bool :=
  (s.cells .ball).all fun ball =>
    (s.cells .paddle).all fun paddle => (Word.ofInt? (ball.x - paddle.x)).isSome

def joystick? (s : Screen) : Joystick → Option Word
  | .neutral => some 0
  | .track => if s.isUnanimous then s.tilts.head? else none

def rig (joystick : Joystick) : Rig (Screen × Pending) where
  look?
    | (s, .nothing) => s.joystick? joystick
    | _ => none
  take? := take?
  rests s := s.2 = .nothing
  rests_of_look {s w} look := by
    obtain ⟨s, _ | _ | _⟩ := s
    · rfl
    · cases look
    · cases look

theorem mem_cells {s : Screen} : p ∈ s.cells tile ↔ s.tiles[p]? = some tile := by
  simp [cells, Std.TreeMap.mem_toList_iff_getElem?_eq_some]

theorem mem_tilts {s : Screen} :
    w ∈ s.tilts ↔ ∃ ball paddle, s.tiles[ball]? = some .ball ∧ s.tiles[paddle]? = some .paddle ∧
      tilt ball paddle = w := by
  simp only [tilts, List.mem_flatMap, List.mem_map, mem_cells]
  grind

theorem isUnanimous_iff {s : Screen} :
    s.isUnanimous ↔ ∀ w ∈ s.tilts, ∀ w₁ ∈ s.tilts, w = w₁ := by
  simp [isUnanimous]

theorem joystick?_track_eq_some_iff {s : Screen} :
    s.joystick? .track = some w ↔ w ∈ s.tilts ∧ s.isUnanimous := by
  unfold joystick?
  by_cases unanimous : s.isUnanimous
  · have same := isUnanimous_iff.1 unanimous
    simp only [unanimous, if_true, and_true]
    constructor
    · exact List.mem_of_head?
    · intro member
      obtain ⟨w₁, rest, eq⟩ := List.exists_cons_of_ne_nil (List.ne_nil_of_mem member)
      rw [eq, List.head?_cons, same w₁ (by simp [eq]) w member]
  · simp [unanimous]

theorem isNear_iff {s : Screen} :
    s.isNear ↔ ∀ ball paddle : Position, s.tiles[ball]? = some .ball →
      s.tiles[paddle]? = some .paddle → (Word.ofInt? (ball.x - paddle.x)).isSome := by
  simp only [isNear, List.all_eq_true, mem_cells]
  exact ⟨fun near ball paddle found found₁ => near ball found paddle found₁,
    fun near ball found paddle found₁ => near ball paddle found found₁⟩

theorem foldlM_take?_triple (s : Screen) (x y id : Word) (rest : List Word) :
    (x :: y :: id :: rest).foldlM take? (s, .nothing) =
      (s.draw? x y id).bind fun s₁ => rest.foldlM take? (s₁, .nothing) := by
  cases draw : s.draw? x y id <;> simp [take?, draw]

end Screen

namespace Cabinet

def screen (c : Cabinet) : Screen := ⟨c.tiles, c.score⟩

def ofScreen (m : Machine) (s : Screen) : Cabinet := ⟨m, s.tiles, s.score⟩

theorem machine_ofScreen (m : Machine) (s : Screen) : (ofScreen m s).machine = m := rfl

theorem position_eq_scorePosition_iff {x y : Word} :
    (⟨x.toInt, y.toInt⟩ : Position) = scorePosition ↔ x = -1 ∧ y = 0 := by
  have left : (-1 : Word).toInt = -1 := rfl
  have right : (0 : Word).toInt = 0 := rfl
  simp only [scorePosition, Position.mk.injEq, ← left, ← right, Int64.toInt_inj]

theorem drawAll_triple_eq_ok_iff {s : Screen} {x y id : Word} :
    (ofScreen m s).drawAll (x :: y :: id :: rest) = (c, .ok ()) ↔
      ∃ s₁, s.draw? x y id = some s₁ ∧ (ofScreen m s₁).drawAll rest = (c, .ok ()) := by
  simp only [drawAll, Screen.draw?, position_eq_scorePosition_iff]
  split
  · simp [ofScreen]
  · cases Tile.ofWord? id with
    | none => simp
    | some tile => simp [ofScreen]

theorem drawAll_eq_ok_iff {s : Screen} : (output : List Word) →
    (output.length % 3 = 0 ∧ (ofScreen m s).drawAll output = (c, .ok ()) ↔
      ∃ s₁, output.foldlM Screen.take? (s, .nothing) = some (s₁, .nothing) ∧ c = ofScreen m s₁)
  | [] => by simp [drawAll, eq_comm]
  | [x] => by simp [Screen.take?]
  | [x, y] => by simp [Screen.take?]
  | x :: y :: id :: rest => by
    have whole : (x :: y :: id :: rest).length % 3 = rest.length % 3 := by
      simp only [List.length_cons]
      omega
    simp only [whole, drawAll_triple_eq_ok_iff, Screen.foldlM_take?_triple,
      Option.bind_eq_some_iff]
    constructor
    · rintro ⟨whole, s₁, draw, all⟩
      obtain ⟨s₂, taken, rfl⟩ := (drawAll_eq_ok_iff rest).1 ⟨whole, all⟩
      exact ⟨s₂, ⟨s₁, draw, taken⟩, rfl⟩
    · rintro ⟨s₂, ⟨s₁, draw, taken⟩, rfl⟩
      obtain ⟨whole, all⟩ := (drawAll_eq_ok_iff rest).2 ⟨s₂, taken, rfl⟩
      exact ⟨whole, s₁, draw, all⟩

theorem drawBatch_eq_ok_iff {s : Screen} :
    (ofScreen m s).drawBatch output = (c, .ok ()) ↔
      ∃ s₁, output.foldlM Screen.take? (s, .nothing) = some (s₁, .nothing) ∧
        c = ofScreen m s₁ := by
  rw [← drawAll_eq_ok_iff, drawBatch]
  split
  · next part => simp [part]
  · next whole => simp [Decidable.not_not.1 whole]

section

variable {tiles : Std.TreeMap Position Tile} {listing : List (Position × Tile)}

theorem getElem?_of_locate? (listed : listing.Perm tiles.toList)
    (h : locate? listing tile = some p) : tiles[p]? = some tile := by
  obtain ⟨⟨p, t⟩, found, rfl⟩ := Option.map_eq_some_iff.1 h
  have member := listed.mem_iff.1 (List.mem_of_find?_eq_some found)
  have same : t = tile := by simpa using List.find?_some found
  rw [Std.TreeMap.mem_toList_iff_getElem?_eq_some] at member
  rw [member, same]

theorem getElem?_ne_of_locate? (listed : listing.Perm tiles.toList)
    (h : locate? listing tile = none) (p : Position) : tiles[p]? ≠ some tile := by
  intro found
  rw [← Std.TreeMap.mem_toList_iff_getElem?_eq_some, ← listed.mem_iff] at found
  have absent := List.find?_eq_none.1 (Option.map_eq_none_iff.1 h) _ found
  simp at absent

end

theorem sign_sub_eq_tilt {ball paddle : Position}
    (near : (Word.ofInt? (ball.x - paddle.x)).isSome) :
    Word.sign (Int64.ofInt ball.x - Int64.ofInt paddle.x) = Screen.tilt ball paddle := by
  obtain ⟨w, near⟩ := Option.isSome_iff_exists.1 near
  have difference : w.toInt = ball.x - paddle.x := Word.ofInt?_eq_some_iff.1 near
  rw [← Int64.ofInt_sub, ← difference, Int64.ofInt_toInt, Word.sign]
  unfold Screen.tilt
  split
  · rw [Int.sign_eq_one_of_pos (by omega)]
    rfl
  · split
    · rw [Int.sign_eq_neg_one_of_neg (by omega)]
      rfl
    · rw [difference, show ball.x - paddle.x = 0 by omega]
      rfl

/-- Where a ball is further away than a word can tell, the joystick goes the wrong way. -/
theorem sign_sub_eq_neg_tilt {x x₁ : Word} (y y₁ : Int)
    (far : Word.ofInt? (x.toInt - x₁.toInt) = none) :
    Word.sign (x - x₁) = -Screen.tilt ⟨x.toInt, y⟩ ⟨x₁.toInt, y₁⟩ := by
  have wrapped : (x - x₁).toInt = (x.toInt - x₁.toInt).bmod 18446744073709551616 :=
    Int64.toInt_sub x x₁
  have := x.le_toInt
  have := x.toInt_lt
  have := x₁.le_toInt
  have := x₁.toInt_lt
  rw [Int.bmod_def] at wrapped
  unfold Word.sign Screen.tilt
  dsimp only
  rcases Word.ofInt?_eq_none_iff.1 far with left | right
  · have positive : 0 < (x - x₁).toInt := by omega
    rw [Int.sign_eq_one_of_pos positive, if_neg (by omega), if_pos (by omega)]
    rfl
  · have negative : (x - x₁).toInt < 0 := by omega
    rw [Int.sign_eq_neg_one_of_neg negative, if_pos (by omega)]
    rfl

example : Word.sign (9223372036854775807 - (-1)) = -1 := by decide

theorem deflection_eq_ok_iff {s : Screen} {scan : Scan} {round : Nat}
    (decided : joystick = .track → s.isUnanimous ∧ s.isNear) :
    (ofScreen m s).deflection scan round joystick = .ok w ↔ s.joystick? joystick = some w := by
  cases joystick with
  | neutral => simp [deflection, Screen.joystick?]
  | track =>
    have listed := scan.perm_toList round s.tiles
    obtain ⟨unanimous, near⟩ := decided rfl
    rw [Screen.joystick?_track_eq_some_iff]
    simp only [unanimous, and_true, deflection, ofScreen]
    cases ball : locate? (scan.listing round s.tiles) .ball with
    | none =>
      have absent := getElem?_ne_of_locate? listed ball
      simp [Screen.mem_tilts, absent]
    | some b =>
      cases paddle : locate? (scan.listing round s.tiles) .paddle with
      | none =>
        have absent := getElem?_ne_of_locate? listed paddle
        simp [Screen.mem_tilts, absent]
      | some p =>
        have found := getElem?_of_locate? listed ball
        have found₁ := getElem?_of_locate? listed paddle
        have member : Screen.tilt b p ∈ s.tilts := Screen.mem_tilts.2 ⟨b, p, found, found₁, rfl⟩
        simp only [sign_sub_eq_tilt (Screen.isNear_iff.1 near b p found found₁), Except.ok.injEq]
        constructor
        · rintro rfl
          exact member
        · exact Screen.isUnanimous_iff.1 unanimous _ member w

/-- Whenever the closed loop looks at the screen, there is only one way to go, and a word can tell
how far. -/
def Decided (joystick : Joystick) (m : Machine) (s : Screen) : Prop :=
  joystick = .track → ∀ m₁ s₁ pending,
    (Screen.rig joystick).Meets m (s, .nothing) m₁ (s₁, pending) → m₁.isAt .input →
      s₁.isUnanimous ∧ s₁.isNear

namespace Decided

variable {m m₁ m₂ : Machine} {s s₁ s₂ : Screen}

theorem of_calls (h : Decided joystick m s) (empty : m.inbox.waiting = [])
    (calls : m.Calls ⟨m₁, .ok output⟩)
    (taken : output.foldlM (Screen.rig joystick).take? (s, .nothing) = some (s₁, .nothing)) :
    Decided joystick m₁ s₁ := fun track m₂ s₂ pending meets =>
  h track m₂ s₂ pending (meets.of_calls empty calls taken)

theorem here (h : Decided joystick m s)
    (waiting : Machine.step { m with state := .active } = .waiting m) (track : joystick = .track) :
    s.isUnanimous ∧ s.isNear := by
  have running : m.state ≠ .halted := by
    simp [Machine.state_of_step_waiting waiting]
  exact h track _ s .nothing ⟨running, .start⟩ (Machine.isAt_of_step_waiting waiting).1

theorem of_round (h : Decided joystick m₁ s₁)
    (waiting : Machine.step { m₁ with state := .active } = .waiting m₁)
    (look : (Screen.rig joystick).look? (s₁, .nothing) = some w)
    (calls : (m₁.enqueue [w]).Calls ⟨m₂, .ok output⟩)
    (taken : output.foldlM (Screen.rig joystick).take? (s₁, .nothing) = some (s₂, .nothing)) :
    Decided joystick m₂ s₂ := fun track m₃ s₃ pending meets =>
  h track m₃ s₃ pending (meets.of_round waiting look calls taken)

end Decided

def Plays (c : Cabinet) (scan : Scan) (joystick : Joystick) (q : Cabinet) (score : Word) : Prop :=
  ∃ fuel, (runFrom scan joystick fuel 0 c).Ends (q, .ok score)

theorem value_runFrom_succ_iff {c q : Cabinet} {round : Nat} {score : Word} :
    (runFrom scan joystick (fuel + 1) round c).value limit = some (q, .ok score) ↔
      ∃ m₁ output s₁, c.machine.call limit = some ⟨m₁, .ok output⟩ ∧
        output.foldlM Screen.take? (c.screen, .nothing) = some (s₁, .nothing) ∧
        (m₁.state = .halted ∧ q = ofScreen m₁ s₁ ∧ score = s₁.score ∨
          m₁.state ≠ .halted ∧ ∃ w, (ofScreen m₁ s₁).deflection scan round joystick = .ok w ∧
            (runFrom scan joystick fuel (round + 1) (ofScreen (m₁.enqueue [w]) s₁)).value limit =
              some (q, .ok score)) := by
  rw [runFrom, Session.value_bind, Session.value_call]
  constructor
  · intro h
    obtain ⟨⟨m₁, result⟩, call, h⟩ := Option.bind_eq_some_iff.1 h
    cases result with
    | error cause => cases h
    | ok output =>
      dsimp only at h
      split at h
      · cases h
      · next c₁ draw =>
        have draw : (ofScreen m₁ c.screen).drawBatch output = (c₁, .ok ()) := draw
        obtain ⟨s₁, taken, rfl⟩ := drawBatch_eq_ok_iff.1 draw
        refine ⟨m₁, output, s₁, call, taken, ?_⟩
        split at h
        · next halted =>
          cases h
          exact .inl ⟨Machine.isHalted_iff.1 halted, rfl, rfl⟩
        · next running =>
          split at h
          · cases h
          · next w deflection =>
            rw [Machine.feed_eq_enqueue _ (by simp)] at h
            exact .inr ⟨mt Machine.isHalted_iff.2 running, w, deflection, h⟩
  · rintro ⟨m₁, output, s₁, call, taken, rest⟩
    have draw : drawBatch { c with machine := m₁ } output = (ofScreen m₁ s₁, .ok ()) :=
      (drawBatch_eq_ok_iff (s := c.screen)).2 ⟨s₁, taken, rfl⟩
    rw [call, Option.bind_some]
    dsimp only
    rw [draw]
    dsimp only
    rcases rest with ⟨halted, rfl, rfl⟩ | ⟨running, w, deflection, rest⟩
    · rw [machine_ofScreen, if_pos (Machine.isHalted_iff.2 halted)]
      rfl
    · rw [machine_ofScreen, if_neg (mt Machine.isHalted_iff.1 running), deflection]
      dsimp only
      rw [Machine.feed_eq_enqueue m₁ (by simp)]
      exact rest

theorem rounds_of_runFrom {c q : Cabinet} {round : Nat} {score : Word}
    (h : (runFrom scan joystick fuel round c).value limit = some (q, .ok score)) :
    ∃ m₁ output s₁, c.machine.Calls ⟨m₁, .ok output⟩ ∧
      output.foldlM (Screen.rig joystick).take? (c.screen, .nothing) = some (s₁, .nothing) ∧
      (Decided joystick m₁ s₁ →
        (Screen.rig joystick).Rounds m₁ (s₁, .nothing) q.machine (q.screen, .nothing)) ∧
      score = q.score := by
  induction fuel generalizing round c with
  | zero => cases h
  | succ fuel ih =>
    obtain ⟨m₁, output, s₁, call, taken, rest⟩ := value_runFrom_succ_iff.1 h
    have calls : c.machine.Calls ⟨m₁, .ok output⟩ := ⟨limit, call⟩
    rcases rest with ⟨halted, rfl, rfl⟩ | ⟨running, w, deflection, rest⟩
    · exact ⟨m₁, output, s₁, calls, taken, fun _ => .halted halted rfl, rfl⟩
    · obtain ⟨m₂, output₂, s₂, calls₂, taken₂, rounds, last⟩ := ih rest
      refine ⟨m₁, output, s₁, calls, taken, ?_, last⟩
      intro decided
      have waiting := calls.halted_or_waiting.resolve_left running
      have look : (Screen.rig joystick).look? (s₁, .nothing) = some w :=
        (deflection_eq_ok_iff (decided.here waiting)).1 deflection
      exact .round running look calls₂ taken₂ (rounds (decided.of_round waiting look calls₂ taken₂))

theorem ends_of_rounds {s s₁ s₂ : Screen} {scan : Scan} {joystick : Joystick}
    (rounds : (Screen.rig joystick).Rounds m₁ t₁ m₂ t₂) (start : t₁ = (s₁, .nothing))
    (last : t₂ = (s₂, .nothing)) (decided : Decided joystick m₁ s₁)
    (calls : m.Calls ⟨m₁, .ok output⟩)
    (taken : output.foldlM (Screen.rig joystick).take? (s, .nothing) = some t₁) (round : Nat) :
    ∃ fuel, (runFrom scan joystick fuel round (ofScreen m s)).Ends
      (ofScreen m₂ s₂, .ok s₂.score) := by
  obtain ⟨limit, call⟩ := calls
  induction rounds generalizing s s₁ m output round limit with
  | @halted m₁ t halted rests =>
    rw [start] at last taken
    cases last
    exact ⟨1, limit, value_runFrom_succ_iff.2
      ⟨m₁, output, s₂, call, taken, .inl ⟨halted, rfl, rfl⟩⟩⟩
  | @round m₁ m₂ m₃ t₁ t₂ t₃ w output₂ running look calls₂ taken₂ rounds ih =>
    subst start
    obtain ⟨s₃, pending⟩ := t₂
    obtain rfl : pending = .nothing := rounds.rests
    have waiting := (Machine.Calls.halted_or_waiting ⟨limit, call⟩).resolve_left running
    have decided₃ := decided.of_round waiting look calls₂ taken₂
    obtain ⟨limit₂, call₂⟩ := calls₂
    obtain ⟨fuel, limit₁, value⟩ := ih rfl last decided₃ taken₂ (round + 1) limit₂ call₂
    have deflection : (ofScreen m₁ s₁).deflection scan round joystick = .ok w :=
      (deflection_eq_ok_iff (decided.here waiting)).2 look
    -- Both the call and the rounds after it get the time that the longer of them needs.
    have call₁ := Machine.call_of_le call (Nat.le_max_left limit limit₁)
    have value₁ := Session.value_of_le value (Nat.le_max_right limit limit₁)
    exact ⟨fuel + 1, max limit limit₁, value_runFrom_succ_iff.2
      ⟨m₁, output, s₁, call₁, taken, .inr ⟨running, w, deflection, value₁⟩⟩⟩

/-- The game comes to a good end just if the closed loop does, whatever the order in which the tiles
are looked through. Then both leave the same screen and the same machine, with no input left. -/
theorem plays_iff_closedLoop (c : Cabinet) (scan : Scan) (joystick : Joystick)
    (empty : c.machine.inbox.waiting = []) (decided : Decided joystick c.machine c.screen) :
    ((∃ q score, c.Plays scan joystick q score) ↔
      ∃ m t, (Screen.rig joystick).Completes c.machine (c.screen, .nothing) m t) ∧
      ∀ q score m t, c.Plays scan joystick q score →
        (Screen.rig joystick).Completes c.machine (c.screen, .nothing) m t →
        t = (q.screen, .nothing) ∧ score = q.score ∧ q.machine = m ∧
          q.machine.inbox.waiting = [] := by
  have closed {q : Cabinet} {score : Word} (plays : c.Plays scan joystick q score) :
      (Screen.rig joystick).Completes c.machine (c.screen, .nothing) q.machine
        (q.screen, .nothing) ∧ score = q.score := by
    obtain ⟨fuel, limit, value⟩ := plays
    obtain ⟨m₁, output, s₁, calls, taken, rounds, last⟩ := rounds_of_runFrom value
    have rounds := rounds (decided.of_calls empty calls taken)
    exact ⟨(Rig.completes_iff_rounds empty).2 ⟨_, _, _, calls, taken, rounds⟩, last⟩
  refine ⟨⟨?_, ?_⟩, ?_⟩
  · rintro ⟨q, score, plays⟩
    exact ⟨_, _, (closed plays).1⟩
  · rintro ⟨m, ⟨s, pending⟩, completes⟩
    obtain ⟨m₁, output, ⟨s₁, pending₁⟩, calls, taken, rounds⟩ :=
      (Rig.completes_iff_rounds empty).1 completes
    obtain rfl : pending₁ = .nothing := rounds.rests
    obtain rfl : pending = .nothing := rounds.rests_last
    have decided₁ := decided.of_calls empty calls taken
    exact ⟨ofScreen m s, s.score, ends_of_rounds rounds rfl rfl decided₁ calls taken 0⟩
  · intro q score m t plays completes
    obtain ⟨completes₁, last⟩ := closed plays
    obtain ⟨rfl, rfl⟩ := completes.unique completes₁
    exact ⟨rfl, last, rfl, completes.inbox_eq_nil empty⟩

theorem plays_iff_closedLoop_two_balls :
    let c : Cabinet := { machine := .ofProgram [104, 1, 104, 0, 104, 4, 104, 2, 104, 5, 104, 4,
      104, 4, 104, 9, 104, 3, 3, 40, 104, -1, 104, 0, 4, 40, 99] }
    let backwards : Scan := ⟨fun _ tiles => tiles.toList.reverse, fun _ _ => List.reverse_perm _⟩
    ∃ q m, c.Plays backwards .track q (-1) ∧
      (Screen.rig .track).Completes c.machine (c.screen, .nothing) m (q.screen, .nothing) ∧
      q.machine = m ∧ q.machine.inbox.waiting = [] ∧
      q.tiles.toList = [(⟨1, 0⟩, .ball), (⟨2, 5⟩, .ball), (⟨4, 9⟩, .paddle)] := by
  intro c backwards
  have decided : Decided .track c.machine c.screen := by
    rintro - m s pending ⟨-, reaches⟩ atInput
    have pass : (Screen.rig .track).passes
        (fun m t => !m.isAt .input || t.1.isUnanimous && t.1.isNear) 14
        { c.machine with state := .active } (c.screen, .nothing) := by
      subst c
      rfl
    simpa [atInput] using reaches.of_passes pass
  obtain ⟨q, value, shows⟩ : ∃ q, (runFrom backwards .track 2 0 c).value 20 = some (q, .ok (-1)) ∧
      q.tiles.toList = [(⟨1, 0⟩, .ball), (⟨2, 5⟩, .ball), (⟨4, 9⟩, .paddle)] := by
    subst c
    exact ⟨_, rfl, rfl⟩
  have plays : c.Plays backwards .track q (-1) := ⟨2, 20, value⟩
  obtain ⟨ends, same⟩ := plays_iff_closedLoop c backwards .track rfl decided
  obtain ⟨m, t, completes⟩ := ends.1 ⟨q, -1, plays⟩
  obtain ⟨rfl, -, machine, empty⟩ := same q (-1) m t plays completes
  exact ⟨q, m, plays, completes, machine, empty, shows⟩

end Cabinet

end WordMachine
