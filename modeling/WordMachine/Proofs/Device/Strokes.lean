import WordMachine.Proofs.Device.Intake
import WordMachine.Proofs.Device.Painting
import WordMachine.Proofs.Journal
import WordMachine.Proofs.Machine.Failure

namespace WordMachine

namespace Hull

open Journal (latest?)

def pairs : List Word → List (Word × Word)
  | colour :: turn :: rest => (colour, turn) :: pairs rest
  | _ => []

def isBit (w : Word) : Bool := w = 0 ∨ w = 1

def isPair (pair : Word × Word) : Bool := isBit pair.1 && isBit pair.2

def complaint (pair : Word × Word) : DeviceError :=
  if isBit pair.1 then .invalidTurn pair.2 else .invalidColour pair.1

def obey (h : Hull) (pair : Word × Word) : Hull × Except DeviceError Unit :=
  if isPair pair then ((h.paint (pair.1 = 1)).turn (pair.2 = 1), .ok ())
  else (if isBit pair.1 then h.paint (pair.1 = 1) else h, .error (complaint pair))

def intake : Intake Hull (Word × Word) := ⟨2, pairs, obey⟩

def walk (stand : Heading × Position) (turn : Word) : Heading × Position :=
  let heading := if turn = 1 then stand.1.clockwise else stand.1.counterclockwise
  (heading, heading.ahead stand.2)

def obeyed (pairs : List (Word × Word)) : List (Word × Word) := pairs.takeWhile isPair

def spilt (pairs : List (Word × Word)) : List Word :=
  ((pairs.find? (!isPair ·)).toList.map Prod.fst).filter isBit

/-- The panels where pairs are obeyed, with their colours, and the panel of a pair with a bad turn
at the end. -/
def strokes (start : Heading × Position) (pairs : List (Word × Word)) : List (Position × Word) :=
  let route := ((obeyed pairs).map Prod.snd).scanl walk start
  (route.map Prod.snd).zip ((obeyed pairs).map Prod.fst ++ spilt pairs)

def colourAt (h : Hull) (p : Position) : Word := Word.ofBool (h.white.contains p)

def Sees (_ : Nat) (h : Hull) (w : Word) : Prop := w = h.colourAt h.position

def stand (h : Hull) : Heading × Position := (h.heading, h.position)

theorem bit?_eq (w : Word) : bit? w = if isBit w then some (decide (w = 1)) else none := by
  have zero : w.toInt = 0 ↔ w = 0 := Int64.toInt_inj (y := 0)
  have one : w.toInt = 1 ↔ w = 1 := Int64.toInt_inj (y := 1)
  unfold bit?
  split
  · next h => simp [isBit, zero.1 h]
  · next h => simp [isBit, one.1 h]
  · next h h₁ => simp [isBit, mt zero.2 h, mt one.2 h₁]

section

variable {h : Hull} {start : Heading × Position} {pair : Word × Word} {rest : List (Word × Word)}

theorem obeyAll_cons_of_isPair (valid : isPair pair) :
    intake.obeyAll h (pair :: rest) =
      intake.obeyAll ((h.paint (pair.1 = 1)).turn (pair.2 = 1)) rest := by
  simp [Intake.obeyAll, intake, obey, valid]

theorem obeyAll_cons_of_not (bad : ¬isPair pair) :
    intake.obeyAll h (pair :: rest) =
      (if isBit pair.1 then h.paint (pair.1 = 1) else h, .error (complaint pair)) := by
  simp [Intake.obeyAll, intake, obey, bad]

theorem strokes_cons_of_isPair (valid : isPair pair) :
    strokes start (pair :: rest) = (start.2, pair.1) :: strokes (walk start pair.2) rest := by
  simp [strokes, obeyed, spilt, valid]

theorem strokes_cons_of_not (bad : ¬isPair pair) :
    strokes start (pair :: rest) = if isBit pair.1 then [(start.2, pair.1)] else [] := by
  cases colour : isBit pair.1 <;> simp [strokes, obeyed, spilt, bad, colour]

theorem stand_turn (h : Hull) (white : Bool) (turn : Word) :
    ((h.paint white).turn (turn = 1)).stand = walk h.stand turn := by
  simp [stand, Hull.turn, paint, walk]

theorem colourAt_turn (h : Hull) (clockwise : Bool) (p : Position) :
    (h.turn clockwise).colourAt p = h.colourAt p := rfl

theorem colourAt_paint (h : Hull) (valid : isBit colour) (p : Position) :
    (h.paint (colour = 1)).colourAt p = if h.position = p then colour else h.colourAt p := by
  have black_or_white : colour = 0 ∨ colour = 1 := by simpa [isBit] using valid
  rcases black_or_white with rfl | rfl <;> by_cases here : h.position = p <;>
    simp [colourAt, paint, Word.ofBool, here]

theorem mem_painted_turn (h : Hull) (clockwise : Bool) (p : Position) :
    p ∈ (h.turn clockwise).painted ↔ p ∈ h.painted := .rfl

theorem mem_painted_paint (h : Hull) (white : Bool) (p : Position) :
    p ∈ (h.paint white).painted ↔ h.position = p ∨ p ∈ h.painted := by
  simp [paint]

end

theorem stand_obeyAll (h : Hull) (pairs : List (Word × Word)) :
    (intake.obeyAll h pairs).1.stand = ((obeyed pairs).map Prod.snd).foldl walk h.stand := by
  induction pairs generalizing h with
  | nil => rfl
  | cons pair rest ih =>
    by_cases valid : isPair pair
    · rw [obeyAll_cons_of_isPair valid, ih, stand_turn]
      simp [obeyed, valid]
    · rw [obeyAll_cons_of_not valid]
      cases isBit pair.1 <;> simp [obeyed, valid, stand, paint]

theorem mem_painted_obeyAll (h : Hull) (pairs : List (Word × Word)) (p : Position) :
    p ∈ (intake.obeyAll h pairs).1.painted ↔
      p ∈ (strokes h.stand pairs).map Prod.fst ∨ p ∈ h.painted := by
  induction pairs generalizing h with
  | nil => simp [Intake.obeyAll, strokes, obeyed, spilt]
  | cons pair rest ih =>
    by_cases valid : isPair pair
    · rw [obeyAll_cons_of_isPair valid, strokes_cons_of_isPair valid, ih, stand_turn,
        mem_painted_turn, mem_painted_paint, List.map_cons, List.mem_cons, or_left_comm, or_assoc,
        eq_comm]
      rfl
    · rw [obeyAll_cons_of_not valid, strokes_cons_of_not valid]
      cases isBit pair.1 with
      | false => simp
      | true => simp [mem_painted_paint, stand, eq_comm]

theorem colourAt_obeyAll (h : Hull) (pairs : List (Word × Word)) (p : Position) :
    (intake.obeyAll h pairs).1.colourAt p =
      (latest? (strokes h.stand pairs) p).getD (h.colourAt p) := by
  induction pairs generalizing h with
  | nil => rfl
  | cons pair rest ih =>
    by_cases valid : isPair pair
    · have colour : isBit pair.1 := (Bool.and_eq_true_iff.1 valid).1
      rw [obeyAll_cons_of_isPair valid, strokes_cons_of_isPair valid, ih, stand_turn, colourAt_turn,
        colourAt_paint h colour, Journal.getD_latest?_cons]
      rfl
    · rw [obeyAll_cons_of_not valid, strokes_cons_of_not valid]
      cases colour : isBit pair.1 with
      | false => rfl
      | true =>
        simp only [if_true, colourAt_paint h colour, Journal.getD_latest?_cons]
        rfl

theorem obeyAll_eq_error_iff (h : Hull) (pairs : List (Word × Word)) :
    (intake.obeyAll h pairs).2 = .error e ↔
      ∃ pair, pairs.find? (!isPair ·) = some pair ∧ complaint pair = e := by
  induction pairs generalizing h with
  | nil => simp [Intake.obeyAll]
  | cons pair rest ih =>
    by_cases valid : isPair pair
    · rw [obeyAll_cons_of_isPair valid, ih]
      simp [valid]
    · rw [obeyAll_cons_of_not valid]
      simp [valid]

theorem obeyAll_eq_ok_iff (h : Hull) (pairs : List (Word × Word)) :
    (intake.obeyAll h pairs).2 = .ok () ↔ ∀ pair ∈ pairs, isPair pair := by
  have found : (∀ pair ∈ pairs, isPair pair) ↔ pairs.find? (!isPair ·) = none := by simp
  rw [Intake.eq_ok_iff, found, Option.eq_none_iff_forall_ne_some]
  simp only [ne_eq, obeyAll_eq_error_iff]
  exact ⟨fun fine pair bad => fine _ ⟨pair, bad, rfl⟩, fun fine e ⟨pair, bad, _⟩ => fine pair bad⟩

end Hull

namespace Painter

open Hull (isBit isPair)
open Journal (latest?)

theorem obey_ofHull (m : Machine) (h : Hull) (pair : Word × Word) :
    (ofHull m h).obey pair.1 pair.2 =
      (ofHull m (Hull.intake.obey h pair).1, (Hull.intake.obey h pair).2) := by
  change _ = (ofHull m (h.obey pair).1, (h.obey pair).2)
  unfold obey
  rw [paint?_ofHull, Hull.bit?_eq]
  cases colour : isBit pair.1 with
  | false => simp [Hull.obey, isPair, Hull.complaint, colour]
  | true =>
    simp only [if_true, Option.map_some, turn?_eq, Hull.bit?_eq]
    cases turn : isBit pair.2 with
    | false => simp [Hull.obey, isPair, Hull.complaint, colour, turn]
    | true => simp [Hull.obey, isPair, colour, turn, ofHull, Hull.turn, Hull.paint]

theorem obeyAll_ofHull (m : Machine) (h : Hull) : (output : List Word) →
    (ofHull m h).obeyAll output =
      (ofHull m (Hull.intake.obeyAll h (Hull.pairs output)).1,
        (Hull.intake.obeyAll h (Hull.pairs output)).2)
  | [] => rfl
  | [_] => rfl
  | colour :: turn :: rest => by
    have step := obey_ofHull m h (colour, turn)
    rcases obeys : Hull.intake.obey h (colour, turn) with ⟨h₁, result⟩
    rw [obeys] at step
    cases result with
    | error e => simp [Painter.obeyAll, Hull.pairs, step, Intake.obeyAll_cons_of_error obeys]
    | ok =>
      have all := obeyAll_ofHull m h₁ rest
      simp [Painter.obeyAll, Hull.pairs, step, Intake.obeyAll_cons_of_ok obeys, all]

def resume (rounds : Nat) (h : Hull) (r : Reply) : Session (Painter × Except DeviceError Unit) :=
  match Hull.intake.take h r with
  | (h, .ok ()) => (ofHull r.machine h).run rounds
  | (h, .error e) => pure (ofHull r.machine h, .error e)

theorem run_succ {p : Painter} (running : ¬p.machine.isHalted) (rounds : Nat) :
    p.run (rounds + 1) =
      Session.call (p.machine.enqueue [p.camera]) >>= resume rounds p.hull := by
  rw [run, if_neg running, Machine.feed_eq_enqueue _ (by simp)]
  dsimp only
  congr 1
  funext r
  obtain ⟨m, result⟩ := r
  cases result with
  | error cause =>
    rw [resume, Intake.take_of_error rfl]
    rfl
  | ok output =>
    dsimp only
    by_cases part : output.length % 2 ≠ 0
    · rw [if_pos part, resume, Intake.take_of_part rfl part]
      rfl
    · have whole : output.length % Hull.intake.width = 0 := Decidable.not_not.1 part
      have taken : Hull.intake.take p.hull ⟨m, .ok output⟩ =
          Hull.intake.obeyAll p.hull (Hull.pairs output) := Intake.take_of_whole rfl whole _
      have all : obeyAll { p with machine := m } output = _ := obeyAll_ofHull m p.hull output
      rw [if_neg part, resume, taken, all]
      rcases Hull.intake.obeyAll p.hull (Hull.pairs output) with ⟨h₁, result⟩
      cases result <;> rfl

theorem course_of_run {p q : Painter} (n : Nat)
    (h : (p.run rounds).value fuel = some (q, result)) :
    Hull.intake.Course Hull.Sees n (p.machine.enqueue [p.camera]) p.hull
        ((p.run rounds).replies fuel) q.hull result ∧
      (result = .ok () → q.machine.state = .halted) ∧
      ∀ r ∈ (p.run rounds).replies fuel, ∀ cause, r.result = .error cause →
        q.machine.state ≠ .halted := by
  induction rounds generalizing p n with
  | zero => cases h
  | succ rounds ih =>
    by_cases halted : p.machine.isHalted
    · rw [run, if_pos halted] at h ⊢
      cases h
      exact ⟨.done, fun _ => Machine.isHalted_iff.1 halted, List.forall_mem_nil _⟩
    · rw [run_succ halted, Session.value_bind, Session.value_call] at h
      obtain ⟨r, call, h⟩ := Option.bind_eq_some_iff.1 h
      rw [run_succ halted, Session.replies_call_bind call]
      unfold resume at h ⊢
      rcases taken : Hull.intake.take p.hull r with ⟨h₁, result₁⟩
      rw [taken] at h
      cases result₁ with
      | error e =>
        cases h
        refine ⟨.stop ⟨fuel, call⟩ taken, by simp, ?_⟩
        intro r₁ member cause failed
        obtain rfl := List.mem_singleton.1 member
        obtain ⟨m, reply⟩ := r₁
        cases failed
        have active := Machine.Calls.active_of_error ⟨fuel, call⟩
        simp [ofHull, active]
      | ok =>
        obtain ⟨course, last, failing⟩ := ih (n + 1) h
        refine ⟨.round ⟨fuel, call⟩ taken rfl course, last, ?_⟩
        intro r₁ member cause failed
        rcases List.mem_cons.1 member with rfl | member
        · simp [Intake.take_of_error failed] at taken
        · exact failing r₁ member cause failed

def start (white : Bool) (m : Machine) : Painter := if white then onWhite m else { machine := m }

theorem hull_start (white : Bool) (m : Machine) :
    (start white m).hull.stand = (.up, .origin) ∧ (start white m).hull.painted = ∅ ∧
      ∀ p, (start white m).hull.colourAt p = if white ∧ p = .origin then 1 else 0 := by
  cases white with
  | false => exact ⟨rfl, rfl, fun p => rfl⟩
  | true =>
    refine ⟨rfl, rfl, ?_⟩
    intro p
    by_cases here : p = .origin
    · simp [start, onWhite, hull, Hull.colourAt, Word.ofBool, here]
    · simp [start, onWhite, hull, Hull.colourAt, Word.ofBool, here, Ne.symm here]

theorem isWhite_iff_colourAt (q : Painter) (p : Position) :
    q.isWhite p ↔ q.hull.colourAt p = 1 := by
  cases contained : q.white.contains p <;>
    simp [isWhite, hull, Hull.colourAt, contained, Word.ofBool]

theorem run_eq_ok_iff {p q : Painter} (h : (p.run rounds).value fuel = some (q, result)) :
    result = .ok () ↔ q.machine.isHalted ∧
      (∀ r ∈ (p.run rounds).replies fuel, ∀ output, r.result = .ok output →
        output.length % 2 = 0) ∧
      ∀ pair ∈ ((p.run rounds).replies fuel).flatMap Hull.intake.recordsIn, isPair pair := by
  obtain ⟨course, last, failing⟩ := course_of_run 0 h
  have fine_iff := course.result_eq_ok_iff
  rw [Hull.obeyAll_eq_ok_iff] at fine_iff
  constructor
  · intro ok
    obtain ⟨fine, valid⟩ := fine_iff.1 ok
    refine ⟨Machine.isHalted_iff.2 (last ok), ?_, valid⟩
    intro r member output reply
    obtain ⟨output₁, reply₁, even⟩ := Intake.fault?_eq_none_iff.1 (fine r member)
    rw [reply] at reply₁
    cases reply₁
    exact even
  · rintro ⟨halted, even, valid⟩
    refine fine_iff.2 ⟨?_, valid⟩
    intro r member
    cases reply : r.result with
    | error cause => exact absurd (Machine.isHalted_iff.1 halted) (failing r member cause reply)
    | ok output => exact Intake.fault?_eq_none_iff.2 ⟨output, reply, even r member output reply⟩

/-- Whatever the machine puts out and however the run ends, each call has been fed what the camera
shows, the painter has gone where the obeyed pairs led it, and the hull shows their strokes: the
last one on a panel gives its colour, and the panels with a stroke are counted once each. The run
goes well just if the machine halts after whole batches of good pairs, and else says what went wrong
first. -/
theorem run_leaves_strokes (m : Machine) (white : Bool) (rounds fuel : Nat) (q : Painter)
    (result : Except DeviceError Unit)
    (value : ((start white m).run rounds).value fuel = some (q, result)) :
    let replies := ((start white m).run rounds).replies fuel
    let pairs := replies.flatMap Hull.intake.recordsIn
    let strokes := Hull.strokes (.up, .origin) pairs
    Hull.intake.Course Hull.Sees 0 (m.enqueue [Word.ofBool white]) (start white m).hull replies
      q.hull result ∧
    (q.heading, q.position) =
      ((Hull.obeyed pairs).map Prod.snd).foldl Hull.walk (.up, .origin) ∧
    (∀ p, q.isWhite p ↔ latest? strokes p = some 1 ∨
      latest? strokes p = none ∧ white ∧ p = .origin) ∧
    q.painted.size = (strokes.map Prod.fst).dedup.length ∧
    (result = .ok () ↔ q.machine.isHalted ∧
      (∀ r ∈ replies, ∀ output, r.result = .ok output → output.length % 2 = 0) ∧
      ∀ pair ∈ pairs, isPair pair) ∧
    ∀ e, result = .error e ↔ (∃ r ∈ replies, Hull.intake.fault? r = some e) ∨
      ∃ pair, pairs.find? (!isPair ·) = some pair ∧ Hull.complaint pair = e := by
  intro replies pairs strokes
  have sight : (start white m).machine.enqueue [(start white m).camera] =
      m.enqueue [Word.ofBool white] := by
    cases white <;> rfl
  obtain ⟨course, -⟩ := course_of_run 0 value
  rw [sight] at course
  obtain ⟨stand, painted, colours⟩ := hull_start white m
  have left : q.hull = (Hull.intake.obeyAll (start white m).hull pairs).1 := course.left_eq
  have errors (e : DeviceError) : result = .error e ↔
      (∃ r ∈ replies, Hull.intake.fault? r = some e) ∨
        ∃ pair, pairs.find? (!isPair ·) = some pair ∧ Hull.complaint pair = e := by
    rw [course.result_eq_error_iff, Hull.obeyAll_eq_error_iff]
  refine ⟨course, ?_, ?_, ?_, ?_, errors⟩
  · change q.hull.stand = _
    rw [left, Hull.stand_obeyAll, stand]
  · intro p
    rw [isWhite_iff_colourAt, left, Hull.colourAt_obeyAll, stand, colours]
    cases latest? strokes p <;> simp
  · have distinct : q.painted.toList.Nodup := by
      refine Std.TreeSet.distinct_toList.imp fun {a b} differ same => ?_
      exact differ (Std.compare_eq_iff_eq.2 same)
    rw [← Std.TreeSet.length_toList]
    apply Journal.length_eq_length_dedup distinct
    intro p
    have member := Hull.mem_painted_obeyAll (start white m).hull pairs p
    rw [← left, stand, painted] at member
    simpa [hull] using member
  · exact run_eq_ok_iff value

/-- Four left turns lead back to the first panel, where a bad turn comes with a good colour. -/
theorem run_leaves_strokes_bad_turn :
    let m : Machine := .ofProgram [3, 50, 104, 1, 104, 0, 104, 0, 104, 0, 104, 1, 104, 0, 104, 0,
      104, 0, 3, 50, 104, 0, 104, 7, 99]
    ∃ q, ((start true m).run 2).value 20 = some (q, .error (.invalidTurn 7)) ∧
      (q.heading, q.position) = (.up, .origin) ∧ q.painted.size = 4 ∧
      ¬q.isWhite .origin ∧ q.isWhite ⟨-1, 1⟩ := by
  intro m
  have value : (((start true m).run 2).value 20).map Prod.snd =
      some (.error (.invalidTurn 7)) := by
    subst m
    rfl
  obtain ⟨⟨q, result⟩, value, rfl⟩ := Option.map_eq_some_iff.1 value
  have pairs : (((start true m).run 2).replies 20).flatMap Hull.intake.recordsIn =
      [(1, 0), (0, 0), (1, 0), (0, 0), (0, 7)] := by
    decide +kernel
  obtain ⟨-, stand, colours, count, -⟩ := run_leaves_strokes m true 2 20 q _ value
  simp only [pairs] at stand colours count
  refine ⟨q, value, stand.trans (by decide), count.trans (by decide), ?_, ?_⟩
  · rw [colours]
    decide
  · rw [colours]
    decide

end Painter

end WordMachine
