import WordMachine.Device.Painter
import WordMachine.Proofs.Device.ClosedLoop
import WordMachine.Proofs.Session

namespace WordMachine

structure Hull where
  position : Position
  heading : Heading
  white : Std.TreeSet Position
  painted : Std.TreeSet Position

namespace Hull

def paint (h : Hull) (white : Bool) : Hull :=
  { h with
    white := if white then h.white.insert h.position else h.white.erase h.position
    painted := h.painted.insert h.position }

def turn (h : Hull) (clockwise : Bool) : Hull :=
  let heading := if clockwise then h.heading.clockwise else h.heading.counterclockwise
  { h with heading, position := heading.ahead h.position }

def bit? (w : Word) : Option Bool :=
  match w.toInt with
  | 0 => some false
  | 1 => some true
  | _ => none

def rig : Rig (Hull × Option Bool) where
  look?
    | (h, none) => some (if h.white.contains h.position then 1 else 0)
    | (_, some _) => none
  take?
    | (h, none), w => (bit? w).map fun white => (h, some white)
    | (h, some white), w => (bit? w).map fun clockwise => ((h.paint white).turn clockwise, none)
  rests s := s.2 = none
  rests_of_look {s w} look := by
    obtain ⟨h, _ | white⟩ := s
    · rfl
    · cases look

theorem foldlM_take?_pair {h : Hull} {colour turn : Word} {rest : List Word} :
    (colour :: turn :: rest).foldlM rig.take? (h, none) = some s ↔
      ∃ white clockwise, bit? colour = some white ∧ bit? turn = some clockwise ∧
        rest.foldlM rig.take? ((h.paint white).turn clockwise, none) = some s := by
  cases colour_eq : bit? colour with
  | none => simp [rig, colour_eq]
  | some white => cases turn_eq : bit? turn <;> simp [rig, colour_eq, turn_eq]

end Hull

namespace Painter

open Hull (bit?)

def hull (p : Painter) : Hull := ⟨p.position, p.heading, p.white, p.painted⟩

def ofHull (m : Machine) (h : Hull) : Painter := ⟨m, h.position, h.heading, h.white, h.painted⟩

theorem machine_ofHull (m : Machine) (h : Hull) : (ofHull m h).machine = m := rfl

theorem paint?_ofHull (m : Machine) (h : Hull) (colour : Word) :
    (ofHull m h).paint? colour = (bit? colour).map fun white => ofHull m (h.paint white) := by
  unfold paint? bit?
  split <;> simp [*, ofHull, Hull.paint]

theorem turn?_eq (heading : Heading) (turn : Word) :
    heading.turn? turn = (bit? turn).map fun clockwise =>
      if clockwise then heading.clockwise else heading.counterclockwise := by
  unfold Heading.turn? bit?
  split <;> simp [*]

theorem obey_eq_ok_iff {h : Hull} :
    (ofHull m h).obey colour turn = (p, .ok ()) ↔
      ∃ white clockwise, bit? colour = some white ∧ bit? turn = some clockwise ∧
        p = ofHull m ((h.paint white).turn clockwise) := by
  unfold obey
  rw [paint?_ofHull]
  cases bit? colour with
  | none => simp
  | some white =>
    simp only [Option.map_some, turn?_eq]
    cases bit? turn with
    | none => simp
    | some clockwise => simp [ofHull, Hull.turn, Hull.paint, eq_comm]

theorem obeyAll_pair_eq_ok_iff {p : Painter} :
    p.obeyAll (colour :: turn :: rest) = (q, .ok ()) ↔
      ∃ p₁, p.obey colour turn = (p₁, .ok ()) ∧ p₁.obeyAll rest = (q, .ok ()) := by
  rw [obeyAll]
  obtain ⟨p₁, result⟩ := p.obey colour turn
  cases result with
  | error e => simp
  | ok => simp

theorem obeyAll_eq_ok_iff {h : Hull} : (output : List Word) →
    (output.length % 2 = 0 ∧ (ofHull m h).obeyAll output = (p, .ok ()) ↔
      ∃ h₁, output.foldlM Hull.rig.take? (h, none) = some (h₁, none) ∧ p = ofHull m h₁)
  | [] => by simp [obeyAll, eq_comm]
  | [w] => by simp [Hull.rig]
  | colour :: turn :: rest => by
    have even : (colour :: turn :: rest).length % 2 = rest.length % 2 := by
      simp only [List.length_cons]
      omega
    simp only [even, obeyAll_pair_eq_ok_iff, obey_eq_ok_iff, Hull.foldlM_take?_pair]
    constructor
    · rintro ⟨even, p₁, ⟨white, clockwise, paints, turns, rfl⟩, all⟩
      obtain ⟨h₁, taken, rfl⟩ := (obeyAll_eq_ok_iff rest).1 ⟨even, all⟩
      exact ⟨h₁, ⟨white, clockwise, paints, turns, taken⟩, rfl⟩
    · rintro ⟨h₁, ⟨white, clockwise, paints, turns, taken⟩, rfl⟩
      obtain ⟨even, all⟩ := (obeyAll_eq_ok_iff rest).2 ⟨h₁, taken, rfl⟩
      exact ⟨even, _, ⟨white, clockwise, paints, turns, rfl⟩, all⟩

def Paints (p q : Painter) : Prop := ∃ rounds, (p.run rounds).Ends (q, .ok ())

theorem rounds_of_run {p q : Painter} (h : (p.run rounds).value fuel = some (q, .ok ())) :
    Hull.rig.Rounds p.machine (p.hull, none) q.machine (q.hull, none) := by
  induction rounds generalizing p with
  | zero => cases h
  | succ rounds ih =>
    unfold run at h
    by_cases halted : p.machine.isHalted
    · rw [if_pos halted] at h
      cases h
      exact .halted (Machine.isHalted_iff.1 halted) rfl
    · rw [if_neg halted, Machine.feed_eq_enqueue _ (by simp)] at h
      simp only [Session.value_bind, Session.value_call] at h
      obtain ⟨⟨m₁, result⟩, call, h⟩ := Option.bind_eq_some_iff.1 h
      cases result with
      | error cause => cases h
      | ok output =>
        dsimp only at h
        split at h
        · cases h
        · next odd =>
          split at h
          · cases h
          · next p₁ all =>
            have even : output.length % 2 = 0 := by simpa using odd
            have all : (ofHull m₁ p.hull).obeyAll output = (p₁, .ok ()) := all
            obtain ⟨h₁, taken, rfl⟩ := (obeyAll_eq_ok_iff output).1 ⟨even, all⟩
            exact .round (mt Machine.isHalted_iff.2 halted) rfl ⟨fuel, call⟩ taken (ih h)

theorem paints_of_rounds {h h₁ : Hull} (rounds : Hull.rig.Rounds m s m₁ s₁)
    (start : s = (h, none)) (last : s₁ = (h₁, none)) : (ofHull m h).Paints (ofHull m₁ h₁) := by
  induction rounds generalizing h with
  | @halted m s halted rests =>
    rw [start] at last
    cases last
    refine ⟨1, ?_⟩
    rw [run, machine_ofHull, if_pos (Machine.isHalted_iff.2 halted)]
    exact (Session.ends_log _).bind (Session.ends_pure _)
  | @round m m₁ m₂ s s₁ s₂ w output running look calls taken rounds ih =>
    subst start
    cases look
    obtain ⟨h₂, colour⟩ := s₁
    obtain rfl : colour = none := rounds.rests
    obtain ⟨n, ends⟩ := ih rfl last
    obtain ⟨even, all⟩ := (obeyAll_eq_ok_iff output).2 ⟨h₂, taken, rfl⟩
    refine ⟨n + 1, ?_⟩
    rw [run, machine_ofHull, if_neg (mt Machine.isHalted_iff.1 running),
      Machine.feed_eq_enqueue m (by simp)]
    apply (Session.ends_call calls).bind
    have all₁ : obeyAll { ofHull m h with machine := m₁ } output = (ofHull m₁ h₂, .ok ()) := all
    dsimp only
    rw [if_neg (by simp [even]), all₁]
    exact ends

/-- Painting comes to a good end just if the closed loop does, and then both leave the same hull and
the same memory. The painter may start anywhere and on any hull. -/
theorem paints_iff_closedLoop (p : Painter) (empty : p.machine.inbox.waiting = [])
    (asks : p.machine.AsksFirst) :
    ((∃ q, p.Paints q) ↔ ∃ m s, Hull.rig.Completes p.machine (p.hull, none) m s) ∧
      ∀ q m s, p.Paints q → Hull.rig.Completes p.machine (p.hull, none) m s →
        s = (q.hull, none) ∧ q.machine.memory = m.memory := by
  have closed {q : Painter} (paints : p.Paints q) :
      ∃ m, Hull.rig.Completes p.machine (p.hull, none) m (q.hull, none) ∧
        m.memory = q.machine.memory := by
    obtain ⟨rounds, fuel, value⟩ := paints
    exact (rounds_of_run value).completes_of_asksFirst empty asks
  refine ⟨⟨?_, ?_⟩, ?_⟩
  · rintro ⟨q, paints⟩
    obtain ⟨m, completes, -⟩ := closed paints
    exact ⟨m, _, completes⟩
  · rintro ⟨m, ⟨hull, colour⟩, completes⟩
    obtain ⟨m₁, rounds, -⟩ := completes.rounds_of_asksFirst empty asks rfl
    obtain rfl : colour = none := rounds.rests_last
    exact ⟨ofHull m₁ hull, paints_of_rounds rounds rfl rfl⟩
  · intro q m s paints completes
    obtain ⟨m₁, completes₁, memory⟩ := closed paints
    obtain ⟨rfl, rfl⟩ := completes.unique completes₁
    exact ⟨rfl, memory.symm⟩

theorem paints_iff_closedLoop_onWhite :
    let p := onWhite (.ofProgram [3, 20, 104, 1, 104, 0, 3, 20, 4, 20, 104, 1, 99])
    ∃ q m, p.Paints q ∧ Hull.rig.Completes p.machine (p.hull, none) m (q.hull, none) ∧
      q.machine.memory = m.memory ∧ q.position = ⟨-1, -1⟩ ∧ q.heading = .up ∧
      q.white.toList = [⟨0, 0⟩] ∧ q.painted.toList = [⟨-1, 0⟩, ⟨0, 0⟩] := by
  intro p
  have asks : p.machine.AsksFirst := by
    rintro - m₁ m₂ w before
    have atStart : m₁ = p.machine := by
      induction before with
      | start => rfl
      | next _ atInput _ ih =>
        have asking : p.machine.isAt .input = true := by
          subst p
          rfl
        simp [ih, asking] at atInput
    have waits : p.machine.step = .waiting { p.machine with state := .waiting } := by
      subst p
      rfl
    simp [atStart, waits]
  obtain ⟨q, value, shows⟩ : ∃ q, (p.run 3).value 20 = some (q, .ok ()) ∧
      q.position = ⟨-1, -1⟩ ∧ q.heading = .up ∧
      q.white.toList = [⟨0, 0⟩] ∧ q.painted.toList = [⟨-1, 0⟩, ⟨0, 0⟩] := by
    subst p
    exact ⟨_, rfl, rfl, rfl, rfl, rfl⟩
  have paints : p.Paints q := ⟨3, 20, value⟩
  obtain ⟨ends, same⟩ := paints_iff_closedLoop p rfl asks
  obtain ⟨m, s, completes⟩ := ends.1 ⟨q, paints⟩
  obtain ⟨rfl, memory⟩ := same q m s paints completes
  exact ⟨q, m, paints, completes, memory, shows⟩

end Painter

end WordMachine
