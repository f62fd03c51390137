import WordMachine.Pipeline.Basic

namespace WordMachine

namespace Phases

def picks : List α → List (α × List α)
  | [] => []
  | a :: rest => (a, rest) :: (picks rest).map fun (b, others) => (b, a :: others)

def arrangements : Nat → List α → List (List α)
  | 0, _ => [[]]
  | n + 1, as => (picks as).flatMap fun (a, others) => (arrangements n others).map (a :: ·)

/-- All orders of a list; equal elements at different places count as different. -/
def orders (as : List α) : List (List α) := arrangements as.length as

/-- A place in an order where something else may be tried: the elements in front of it and those
already tried at it, both the last first, and those still to try. -/
structure Choice (α : Type u) where
  front : List α
  tried : List α
  left : List α

def Choice.orders (c : Choice α) : List (List α) :=
  (picks c.left).flatMap fun (a, others) =>
    (Phases.orders (c.tried.reverse ++ others)).map fun rest => c.front.reverse ++ a :: rest

def remaining (choices : List (Choice α)) : List (List α) := choices.flatMap Choice.orders

def lineUp (front : List α) : List α → List (Choice α) → List α × List (Choice α)
  | [], choices => (front.reverse, choices)
  | a :: rest, choices => lineUp (a :: front) rest (⟨front, [a], rest⟩ :: choices)

def next? : List (Choice α) → Option (List α × List (Choice α))
  | [] => none
  | ⟨_, _, []⟩ :: choices => next? choices
  | ⟨front, tried, a :: left⟩ :: choices =>
    some (lineUp (a :: front) (tried.reverse ++ left) (⟨front, a :: tried, left⟩ :: choices))

theorem length_of_mem_picks {as : List α} {pick : α × List α} (h : pick ∈ picks as) :
    pick.2.length + 1 = as.length := by
  induction as generalizing pick with
  | nil => simp [picks] at h
  | cons a rest ih =>
    simp only [picks, List.mem_cons, List.mem_map] at h
    rcases h with rfl | ⟨other, h, rfl⟩
    · rfl
    · simp [ih h]

theorem orders_cons (a : α) (rest : List α) :
    orders (a :: rest) =
      (picks (a :: rest)).flatMap fun (b, others) => (orders others).map (b :: ·) := by
  simp only [orders, List.length_cons, arrangements, List.flatMap_def]
  congr 1
  apply List.map_congr_left
  intro pick h
  have := length_of_mem_picks h
  rw [List.length_cons, Nat.add_right_cancel_iff] at this
  rw [this]

theorem Choice.orders_cons (front tried left : List α) (a : α) :
    (⟨front, tried, a :: left⟩ : Choice α).orders =
      (Phases.orders (tried.reverse ++ left)).map ((a :: front).reverse ++ ·) ++
        (⟨front, a :: tried, left⟩ : Choice α).orders := by
  simp [Choice.orders, picks, List.flatMap_map]

theorem map_orders_cons (front : List α) (a : α) (rest : List α) :
    (orders (a :: rest)).map (front.reverse ++ ·) =
      (orders rest).map ((a :: front).reverse ++ ·) ++
        (⟨front, [a], rest⟩ : Choice α).orders := by
  rw [orders_cons]
  simp [Choice.orders, picks, List.map_flatMap, List.flatMap_map, Function.comp_def]

theorem lineUp_fst_cons_remaining (front as : List α) (choices : List (Choice α)) :
    (lineUp front as choices).1 :: remaining (lineUp front as choices).2 =
      (orders as).map (front.reverse ++ ·) ++ remaining choices := by
  induction as generalizing front choices with
  | nil => simp [lineUp, orders, arrangements]
  | cons a rest ih =>
    rw [lineUp, ih, map_orders_cons]
    simp [remaining]

theorem remaining_of_next?_eq_none {choices : List (Choice α)} (h : next? choices = none) :
    remaining choices = [] := by
  fun_induction next? choices with
  | case1 => rfl
  | case2 front tried choices ih => simpa [remaining, Choice.orders, picks] using ih h
  | case3 => simp at h

theorem remaining_of_next?_eq_some {choices : List (Choice α)} {step : List α × List (Choice α)}
    (h : next? choices = some step) : remaining choices = step.1 :: remaining step.2 := by
  fun_induction next? choices with
  | case1 => simp at h
  | case2 front tried choices ih => simpa [remaining, Choice.orders, picks] using ih h
  | case3 front tried a left choices =>
    obtain rfl := Option.some.inj h
    rw [lineUp_fst_cons_remaining]
    simp [remaining, Choice.orders_cons]

/-- Visits the orders that open choices lead to. An order is made up only when its turn comes, so a
visit that ends early has made up few of them. -/
def visit [Monad m] (f : β → List α → m β) (choices : List (Choice α)) (b : β) : m β :=
  match _next : next? choices with
  | none => pure b
  | some (order, choices) => do visit f choices (← f b order)
termination_by (remaining choices).length
decreasing_by simp [remaining_of_next?_eq_some _next]

def visitOrders [Monad m] (f : β → List α → m β) (as : List α) (b : β) : m β := do
  let (order, choices) := lineUp [] as []
  visit f choices (← f b order)

def signal (fuel : Nat) (feedback : Bool) (program order : List Word) :
    Session (Except PipelineError Word) :=
  match Pipeline.ofPhases program order with
  | .error e => return .error e
  | .ok p => do
    let (_, result) ← if feedback then p.feedback fuel 0 else p.amplify 0
    return result

def improve (fuel : Nat) (feedback : Bool) (program : List Word)
    (best : Option (Word × List Word)) (order : List Word) :
    ExceptT PipelineError Session (Option (Word × List Word)) := do
  let w ← ExceptT.mk (signal fuel feedback program order)
  if best.all fun (strongest, _) => strongest < w then
    Session.log (.betterPhases w order)
    return some (w, order)
  else return best

/-- The strongest signal and the first order that gives it. Every order has to give one. -/
def best (fuel : Nat) (feedback : Bool) (program phases : List Word) :
    Session (Except PipelineError (Word × List Word)) := ExceptT.run do
  match ← visitOrders (improve fuel feedback program) phases none with
  | none => throw .empty
  | some best => return best

theorem visit_eq_foldlM [Monad m] [LawfulMonad m] (f : β → List α → m β)
    (choices : List (Choice α)) (b : β) :
    visit f choices b = (remaining choices).foldlM f b := by
  fun_induction visit f choices b with
  | case1 choices b h => simp [remaining_of_next?_eq_none h]
  | case2 choices b order rest h ih => simp [remaining_of_next?_eq_some h, ih]

theorem visitOrders_eq_foldlM [Monad m] [LawfulMonad m] (f : β → List α → m β) (as : List α)
    (b : β) : visitOrders f as b = (orders as).foldlM f b := by
  have h := lineUp_fst_cons_remaining [] as []
  simp only [List.reverse_nil, List.nil_append, List.map_id', remaining, List.flatMap_nil,
    List.append_nil] at h
  simp [visitOrders, visit_eq_foldlM, remaining, ← h]

end Phases

end WordMachine
