import WordMachine.Grid.Position

namespace WordMachine

namespace Grid

def bounds? : List Position → Option (Position × Position)
  | [] => none
  | p :: rest =>
    match bounds? rest with
    | none => some (p, p)
    | some (low, high) =>
      some (⟨min p.x low.x, min p.y low.y⟩, ⟨max p.x high.x, max p.y high.y⟩)

def span (low high : Int) : List Int :=
  (List.range (high - low + 1).toNat).map fun (k : Nat) => low + k

def row (glyph : Position → Char) (low high : Position) (y : Int) : String :=
  String.ofList ((span low.x high.x).map fun x => glyph ⟨x, y⟩)

def render (cells : List Position) (glyph : Position → Char) : String :=
  match bounds? cells with
  | none => ""
  | some (low, high) => "\n".intercalate ((span low.y high.y).map (row glyph low high))

end Grid

end WordMachine
