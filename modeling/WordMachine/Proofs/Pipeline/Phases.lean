import Mathlib.Data.List.FinRange
import Mathlib.Data.List.Lex
import Mathlib.Order.Fin.Basic
import WordMachine.Pipeline.Phases
import WordMachine.Proofs.Pipeline.LastWord

namespace WordMachine

namespace Phases

theorem picks_map (f : α → β) (as : List α) :
    picks (as.map f) = (picks as).map (Prod.map f (List.map f)) := by
  induction as with
  | nil => rfl
  | cons a rest ih => simp [picks, ih]

theorem arrangements_map (f : α → β) (n : Nat) (as : List α) :
    arrangements n (as.map f) = (arrangements n as).map (List.map f) := by
  induction n generalizing as with
  | zero => rfl
  | succ n ih =>
    simp [arrangements, picks_map, ih, List.flatMap_map, List.map_flatMap, Function.comp_def]

theorem orders_map (f : α → β) (as : List α) :
    orders (as.map f) = (orders as).map (List.map f) := by
  rw [orders, List.length_map, arrangements_map, orders]

theorem perm_of_mem_picks {as : List α} (h : pick ∈ picks as) : (pick.1 :: pick.2).Perm as := by
  induction as generalizing pick with
  | nil => cases h
  | cons a rest ih =>
    simp only [picks, List.mem_cons, List.mem_map] at h
    rcases h with rfl | ⟨other, h, rfl⟩
    · exact .refl _
    · exact (List.Perm.swap a other.1 other.2).trans ((ih h).cons a)

theorem map_fst_picks (as : List α) : (picks as).map Prod.fst = as := by
  induction as with
  | nil => rfl
  | cons a rest ih =>
    rw [picks, List.map_cons, List.map_map]
    exact congrArg (a :: ·) ih

theorem exists_mem_picks {as : List α} (h : a ∈ as) : ∃ pick ∈ picks as, pick.1 = a := by
  rwa [← map_fst_picks as, List.mem_map] at h

theorem mem_orders_iff {as order : List α} : order ∈ orders as ↔ order.Perm as := by
  induction order generalizing as with
  | nil =>
    cases as with
    | nil => simp [orders, arrangements]
    | cons a rest => simp [orders_cons]
  | cons a order ih =>
    cases as with
    | nil => simp [orders, arrangements]
    | cons b rest =>
      simp only [orders_cons, List.mem_flatMap, List.mem_map]
      constructor
      · rintro ⟨pick, picked, _, member, ⟨⟩⟩
        exact ((ih.1 member).cons pick.1).trans (perm_of_mem_picks picked)
      · intro perm
        obtain ⟨pick, picked, rfl⟩ := exists_mem_picks (perm.mem_iff.1 List.mem_cons_self)
        have perm₁ := perm.trans (perm_of_mem_picks picked).symm
        exact ⟨pick, picked, order, ih.2 perm₁.cons_inv, rfl⟩

theorem sublist_of_mem_picks {as : List α} (h : pick ∈ picks as) : pick.2.Sublist as := by
  induction as generalizing pick with
  | nil => cases h
  | cons a rest ih =>
    simp only [picks, List.mem_cons, List.mem_map] at h
    rcases h with rfl | ⟨other, h, rfl⟩
    · exact List.sublist_cons_self a rest
    · exact (ih h).cons_cons a

theorem pairwise_orders [LT α] {as : List α} (h : as.Pairwise (· < ·)) :
    (orders as).Pairwise (· < ·) := by
  induction size : as.length generalizing as with
  | zero =>
    obtain rfl := List.length_eq_zero_iff.1 size
    exact List.pairwise_singleton _ _
  | succ n ih =>
    obtain ⟨a, rest, rfl⟩ := List.exists_cons_of_length_eq_add_one size
    rw [orders_cons, List.pairwise_flatMap]
    constructor
    · intro pick picked
      have sorted : pick.2.Pairwise (· < ·) := h.sublist (sublist_of_mem_picks picked)
      have length : pick.2.length = n := by
        have := length_of_mem_picks picked
        omega
      refine List.pairwise_map.2 ((ih sorted length).imp fun lt => ?_)
      exact List.cons_lt_cons_iff.2 (.inr ⟨rfl, lt⟩)
    · rw [← map_fst_picks (a :: rest), List.pairwise_map] at h
      refine h.imp fun lt => ?_
      intro order member order₁ member₁
      obtain ⟨rest, -, rfl⟩ := List.mem_map.1 member
      obtain ⟨rest₁, -, rfl⟩ := List.mem_map.1 member₁
      exact List.cons_lt_cons_iff.2 (.inl lt)

def arrange (phases : List Word) (places : List (Fin phases.length)) : List Word :=
  places.map phases.get

def EachOnce (places : List (Fin n)) : Prop := places.Perm (List.finRange n)

theorem orders_eq_map_arrange (phases : List Word) :
    orders phases = (orders (List.finRange phases.length)).map (arrange phases) := by
  calc
    orders phases = orders ((List.finRange phases.length).map phases.get) := by
      rw [List.map_get_finRange]
    _ = (orders (List.finRange phases.length)).map (arrange phases) := orders_map _ _

theorem perm_arrange {phases : List Word} {places : List (Fin phases.length)}
    (h : EachOnce places) : (arrange phases places).Perm phases := by
  have perm := h.map phases.get
  rwa [List.map_get_finRange] at perm

def Gives (feedback : Bool) (program order : List Word) (result : Except PipelineError Word) :
    Prop := ∃ rounds, (signal rounds feedback program order).Ends result

def Finds (feedback : Bool) (program phases : List Word)
    (result : Except PipelineError (Word × List Word)) : Prop :=
  ∃ rounds, (best rounds feedback program phases).Ends result

variable {feedback : Bool} {program phases order : List Word}

theorem value_signal_of_le (h : (signal rounds feedback program order).value limit = some result)
    (le : rounds ≤ more) : (signal more feedback program order).value limit = some result := by
  unfold signal at h ⊢
  cases stages : Pipeline.ofPhases program order with
  | error e => simpa [stages] using h
  | ok p =>
    cases feedback with
    | false => simpa [stages] using h
    | true =>
      simp only [stages, if_true, Session.value_bind, Option.bind_eq_some_iff] at h ⊢
      obtain ⟨left, value, h⟩ := h
      exact ⟨left, Pipeline.value_feedbackFrom_of_le value le, h⟩

theorem gives_nil (feedback : Bool) (program : List Word) :
    Gives feedback program [] (.error .empty) := ⟨0, 0, rfl⟩

theorem Gives.unique (h : Gives feedback program order result)
    (h₁ : Gives feedback program order result₁) : result = result₁ := by
  obtain ⟨rounds, h⟩ := h
  obtain ⟨rounds₁, h₁⟩ := h₁
  exact Session.Ends.unique_of_bounds value_signal_of_le h h₁

def better (leader : Option (Word × List Word)) (w : Word) (order : List Word) :
    Option (Word × List Word) :=
  if leader.all fun (strongest, _) => strongest < w then some (w, order) else leader

theorem value_foldlM_cons (rounds limit : Nat) (leader : Option (Word × List Word))
    (order : List Word) (rest : List (List Word)) :
    ((order :: rest).foldlM (improve rounds feedback program) leader).run.value limit =
      ((signal rounds feedback program order).value limit).bind fun
        | .error e => some (.error e)
        | .ok w => (rest.foldlM (improve rounds feedback program) (better leader w order)).run.value
            limit := by
  have tried : (improve rounds feedback program leader order).run.value limit =
      ((signal rounds feedback program order).value limit).map (·.map (better leader · order)) := by
    simp only [improve, ExceptT.run_bind, ExceptT.run_mk, Session.value_bind]
    cases (signal rounds feedback program order).value limit with
    | none => rfl
    | some result =>
      cases result with
      | error e => rfl
      | ok w =>
        simp only [Option.bind_some, Option.map_some, Except.map, better]
        split <;> rfl
  rw [List.foldlM_cons, ExceptT.run_bind, Session.value_bind, tried]
  cases (signal rounds feedback program order).value limit with
  | none => rfl
  | some result => cases result <;> rfl

theorem value_foldlM_of_le {orders : List (List Word)} {leader : Option (Word × List Word)}
    (h : (orders.foldlM (improve rounds feedback program) leader).run.value limit = some result)
    (le : rounds ≤ more) :
    (orders.foldlM (improve more feedback program) leader).run.value limit = some result := by
  induction orders generalizing leader with
  | nil => exact h
  | cons order orders ih =>
    rw [value_foldlM_cons, Option.bind_eq_some_iff] at h ⊢
    obtain ⟨result₁, value, h⟩ := h
    refine ⟨result₁, value_signal_of_le value le, ?_⟩
    cases result₁ with
    | error e => exact h
    | ok w => exact ih h

theorem value_best_of_le (h : (best rounds feedback program phases).value limit = some result)
    (le : rounds ≤ more) : (best more feedback program phases).value limit = some result := by
  simp only [best, visitOrders_eq_foldlM, ExceptT.run_bind, Session.value_bind,
    Option.bind_eq_some_iff] at h ⊢
  obtain ⟨found, value, h⟩ := h
  exact ⟨found, value_foldlM_of_le value le, h⟩

theorem Finds.unique (h : Finds feedback program phases result)
    (h₁ : Finds feedback program phases result₁) : result = result₁ := by
  obtain ⟨rounds, h⟩ := h
  obtain ⟨rounds₁, h₁⟩ := h₁
  exact Session.Ends.unique_of_bounds value_best_of_le h h₁

def Tries (feedback : Bool) (program : List Word) (leader : Option (Word × List Word))
    (orders : List (List Word)) (result : Except PipelineError (Option (Word × List Word))) :
    Prop :=
  ∃ rounds, (orders.foldlM (improve rounds feedback program) leader).run.Ends result

namespace Tries

theorem nil (leader : Option (Word × List Word)) : Tries feedback program leader [] (.ok leader) :=
  ⟨0, Session.ends_pure _⟩

theorem fail (h : Gives feedback program order (.error e)) (leader : Option (Word × List Word))
    (rest : List (List Word)) : Tries feedback program leader (order :: rest) (.error e) := by
  obtain ⟨rounds, limit, h⟩ := h
  refine ⟨rounds, limit, ?_⟩
  rw [value_foldlM_cons, h]
  rfl

theorem next (h : Gives feedback program order (.ok w))
    (h₁ : Tries feedback program (better leader w order) rest result) :
    Tries feedback program leader (order :: rest) result := by
  obtain ⟨rounds, limit, h⟩ := h
  obtain ⟨rounds₁, limit₁, h₁⟩ := h₁
  have value := value_signal_of_le h (Nat.le_max_left rounds rounds₁)
  have value₁ := value_foldlM_of_le h₁ (Nat.le_max_right rounds rounds₁)
  refine ⟨max rounds rounds₁, max limit limit₁, ?_⟩
  rw [value_foldlM_cons, Session.value_of_le value (Nat.le_max_left limit limit₁)]
  exact Session.value_of_le value₁ (Nat.le_max_right limit limit₁)

theorem finds (h : Tries feedback program none (orders phases) result) :
    Finds feedback program phases (result.bind fun leader => leader.elim (.error .empty) .ok) := by
  obtain ⟨rounds, limit, h⟩ := h
  refine ⟨rounds, limit, ?_⟩
  simp only [best, visitOrders_eq_foldlM, ExceptT.run_bind, Session.value_bind, h]
  rcases result with e | _ | leader <;> rfl

end Tries

def Leads (feedback : Bool) (program phases : List Word) (tried : List (List (Fin phases.length))) :
    Option (Word × List Word) → Prop
  | none => tried = []
  | some (strongest, order) =>
    ∃ places ∈ tried, arrange phases places = order ∧ Gives feedback program order (.ok strongest) ∧
      ∀ other ∈ tried, ∃ w, Gives feedback program (arrange phases other) (.ok w) ∧
        w ≤ strongest ∧ (other < places → w < strongest)

theorem Leads.better {tried : List (List (Fin phases.length))} {places : List (Fin phases.length)}
    (h : Leads feedback program phases tried leader)
    (gives : Gives feedback program (arrange phases places) (.ok w))
    (last : ∀ other ∈ tried, other < places) :
    Leads feedback program phases (tried ++ [places])
      (better leader w (arrange phases places)) := by
  have itself : w ≤ w ∧ (places < places → w < w) :=
    ⟨Int64.le_refl w, fun lt => absurd lt (lt_irrefl places)⟩
  cases leader with
  | none =>
    obtain rfl : tried = [] := h
    refine ⟨places, by simp, rfl, gives, ?_⟩
    intro other member
    obtain rfl : other = places := by simpa using member
    exact ⟨w, gives, itself⟩
  | some first =>
    obtain ⟨strongest, order⟩ := first
    obtain ⟨leading, member, arranged, gives₁, others⟩ := h
    by_cases stronger : strongest < w
    · rw [Phases.better, if_pos (by simpa using stronger)]
      refine ⟨places, by simp, rfl, gives, ?_⟩
      intro other member
      rcases List.mem_append.1 member with member | member
      · obtain ⟨w₁, gives₂, le, -⟩ := others other member
        have lt := Int64.lt_of_le_of_lt le stronger
        exact ⟨w₁, gives₂, Int64.le_of_lt lt, fun _ => lt⟩
      · obtain rfl := List.mem_singleton.1 member
        exact ⟨w, gives, itself⟩
    · rw [Phases.better, if_neg (by simpa using stronger)]
      refine ⟨leading, by simp [member], arranged, gives₁, ?_⟩
      intro other member₁
      rcases List.mem_append.1 member₁ with member₁ | member₁
      · exact others other member₁
      · obtain rfl := List.mem_singleton.1 member₁
        exact ⟨w, gives, Int64.not_lt.1 stronger, fun lt => absurd lt (lt_asymm (last _ member))⟩

def FailsFirst (feedback : Bool) (program phases : List Word)
    (tried : List (List (Fin phases.length))) (e : PipelineError) : Prop :=
  ∃ places ∈ tried, Gives feedback program (arrange phases places) (.error e) ∧
    ∀ earlier ∈ tried, earlier < places →
      ∃ w, Gives feedback program (arrange phases earlier) (.ok w)

theorem FailsFirst.unique {tried : List (List (Fin phases.length))}
    (h : FailsFirst feedback program phases tried e)
    (h₁ : FailsFirst feedback program phases tried e₁) : e = e₁ := by
  obtain ⟨places, member, fails, sound⟩ := h
  obtain ⟨places₁, member₁, fails₁, sound₁⟩ := h₁
  rcases lt_trichotomy places places₁ with lt | rfl | lt
  · obtain ⟨w, gives⟩ := sound₁ places member lt
    cases gives.unique fails
  · cases fails.unique fails₁
    rfl
  · obtain ⟨w, gives⟩ := sound places₁ member₁ lt
    cases gives.unique fails₁

theorem Leads.tries {tried rest : List (List (Fin phases.length))}
    (h : Leads feedback program phases tried leader) (sorted : (tried ++ rest).Pairwise (· < ·))
    (returns : ∀ places ∈ rest,
      (∀ earlier ∈ rest, earlier < places →
        ∀ e, ¬Gives feedback program (arrange phases earlier) (.error e)) →
      ∃ result, Gives feedback program (arrange phases places) result) :
    (∃ leader₁, Tries feedback program leader (rest.map (arrange phases)) (.ok leader₁) ∧
      Leads feedback program phases (tried ++ rest) leader₁) ∨
    ∃ e, Tries feedback program leader (rest.map (arrange phases)) (.error e) ∧
      FailsFirst feedback program phases rest e := by
  induction rest generalizing tried leader with
  | nil => exact .inl ⟨leader, .nil leader, by simpa using h⟩
  | cons places rest ih =>
    have next : ∀ other ∈ rest, places < other := by
      have := (List.pairwise_append.1 sorted).2.1
      exact (List.pairwise_cons.1 this).1
    have last : ∀ other ∈ tried, other < places := fun other member =>
      (List.pairwise_append.1 sorted).2.2 other member places List.mem_cons_self
    have first : ∀ earlier ∈ places :: rest, ¬earlier < places := by
      intro earlier member
      rcases List.mem_cons.1 member with rfl | member
      · exact lt_irrefl _
      · exact lt_asymm (next earlier member)
    obtain ⟨result, gives⟩ := returns places List.mem_cons_self fun earlier member lt =>
      absurd lt (first earlier member)
    cases result with
    | error e =>
      refine .inr ⟨e, .fail gives _ _, places, List.mem_cons_self, gives, ?_⟩
      intro earlier member lt
      exact absurd lt (first earlier member)
    | ok w =>
      rw [List.append_cons] at sorted
      have rest_tries := ih (h.better gives last) sorted fun other member sound =>
        returns other (List.mem_cons_of_mem _ member) fun earlier member₁ lt => by
          rcases List.mem_cons.1 member₁ with rfl | member₁
          · intro e fails
            cases gives.unique fails
          · exact sound earlier member₁ lt
      rcases rest_tries with ⟨leader₁, tries, leads⟩ | ⟨e, tries, other, member, fails, sound⟩
      · exact .inl ⟨leader₁, .next gives tries, by rwa [List.append_cons]⟩
      · refine .inr ⟨e, .next gives tries, other, List.mem_cons_of_mem _ member, fails, ?_⟩
        intro earlier member₁ lt
        rcases List.mem_cons.1 member₁ with rfl | member₁
        · exact ⟨w, gives⟩
        · exact sound earlier member₁ lt

theorem mem_orders_finRange_iff {places : List (Fin n)} :
    places ∈ orders (List.finRange n) ↔ EachOnce places := mem_orders_iff

theorem ends_of_returns (returns : ∀ places : List (Fin phases.length), EachOnce places →
      (∀ earlier, EachOnce earlier → earlier < places →
        ∀ e, ¬Gives feedback program (arrange phases earlier) (.error e)) →
      ∃ result, Gives feedback program (arrange phases places) result) :
    (∃ leader, Finds feedback program phases (.ok leader) ∧
      Leads feedback program phases (orders (List.finRange phases.length)) (some leader)) ∨
    ∃ e, Finds feedback program phases (.error e) ∧
      FailsFirst feedback program phases (orders (List.finRange phases.length)) e := by
  have sorted : ([] ++ orders (List.finRange phases.length)).Pairwise (· < ·) :=
    pairwise_orders (List.pairwise_lt_finRange phases.length)
  have start : Leads feedback program phases [] none := rfl
  have tries := start.tries sorted (by simpa only [mem_orders_finRange_iff] using returns)
  rw [← orders_eq_map_arrange, List.nil_append] at tries
  rcases tries with ⟨_ | leader, tries, leads⟩ | ⟨e, tries, fails⟩
  · -- There is always an order to try, also of no phases.
    have empty : orders (List.finRange phases.length) = [] := leads
    have member : List.finRange phases.length ∈ orders (List.finRange phases.length) :=
      mem_orders_iff.2 (.refl _)
    rw [empty] at member
    cases member
  · exact .inl ⟨leader, tries.finds, leads⟩
  · exact .inr ⟨e, tries.finds, fails⟩

/-- The search tries the orders of the phases by their places. It ends with an order if there are
phases and every order gives a signal. No order gives a stronger signal than this one, and those
before it all give weaker ones. Otherwise the search ends with the error of the first order that
has one. -/
theorem best_is_first_maximum (feedback : Bool) (program phases : List Word)
    (returns : ∀ places : List (Fin phases.length), EachOnce places →
      (∀ earlier, EachOnce earlier → earlier < places →
        ∀ e, ¬Gives feedback program (arrange phases earlier) (.error e)) →
      ∃ result, Gives feedback program (arrange phases places) result) :
    ∃ result, (∀ other, Finds feedback program phases other ↔ other = result) ∧
      ((∃ strongest order, result = .ok (strongest, order)) ↔ phases ≠ [] ∧
        ∀ places, EachOnce places → ∃ w, Gives feedback program (arrange phases places) (.ok w)) ∧
      (∀ strongest order, result = .ok (strongest, order) →
        order.Perm phases ∧ Gives feedback program order (.ok strongest) ∧
        ∃ places, EachOnce places ∧ arrange phases places = order ∧
          ∀ other w, EachOnce other → Gives feedback program (arrange phases other) (.ok w) →
            w ≤ strongest ∧ (other < places → w < strongest)) ∧
      (∀ e, result = .error e ↔ ∃ places, EachOnce places ∧
        Gives feedback program (arrange phases places) (.error e) ∧
        ∀ earlier, EachOnce earlier → earlier < places →
          ∃ w, Gives feedback program (arrange phases earlier) (.ok w)) ∧
      (phases = [] → result = .error .empty) := by
  rcases ends_of_returns returns with
    ⟨⟨strongest, order⟩, finds, places, member, arranged, gives, others⟩ | ⟨e, finds, fails⟩
  · simp only [mem_orders_finRange_iff] at member others
    have perm : order.Perm phases := arranged ▸ perm_arrange member
    have filled : phases ≠ [] := by
      rintro rfl
      obtain rfl := perm.eq_nil
      cases gives.unique (gives_nil feedback program)
    refine ⟨.ok (strongest, order), fun other => ⟨fun finds₁ => finds₁.unique finds, ?_⟩,
      ⟨fun _ => ⟨filled, fun other once => ?_⟩, fun _ => ⟨strongest, order, rfl⟩⟩, ?_, ?_,
      fun empty => absurd empty filled⟩
    · rintro rfl
      exact finds
    · obtain ⟨w, gives₁, -⟩ := others other once
      exact ⟨w, gives₁⟩
    · rintro _ _ ⟨⟩
      refine ⟨perm, gives, places, member, arranged, fun other w once gives₁ => ?_⟩
      obtain ⟨w₁, gives₂, bounds⟩ := others other once
      cases gives₁.unique gives₂
      exact bounds
    · intro e
      simp only [reduceCtorEq, false_iff]
      rintro ⟨other, once, fails, -⟩
      obtain ⟨w, gives₁, -⟩ := others other once
      cases gives₁.unique fails
  · have first (e₁ : PipelineError) : FailsFirst feedback program phases _ e₁ ↔ e = e₁ :=
      ⟨fails.unique, fun same => same ▸ fails⟩
    simp only [FailsFirst, mem_orders_finRange_iff] at first
    obtain ⟨places, once, gives, -⟩ := (first e).2 rfl
    refine ⟨.error e, fun other => ⟨fun finds₁ => finds₁.unique finds, ?_⟩, ?_, by simp, ?_, ?_⟩
    · rintro rfl
      exact finds
    · simp only [reduceCtorEq, exists_false, false_iff]
      rintro ⟨-, sound⟩
      obtain ⟨w, gives₁⟩ := sound places once
      cases gives₁.unique gives
    · intro e₁
      rw [first, Except.error.injEq]
    · rintro rfl
      rw [(perm_arrange once).eq_nil] at gives
      rw [Except.error.inj (gives.unique (gives_nil feedback program))]

theorem best_is_first_maximum_tied :
    let program : List Word := [3, 20, 3, 21, 1, 21, 21, 22, 1, 22, 20, 22, 4, 22, 99]
    let phases : List Word := [1, 2, 1]
    (∀ places, EachOnce places → ∃ w, Gives false program (arrange phases places) (.ok w)) ∧
      Finds false program phases (.ok (11, [2, 1, 1])) ∧
      ∃ places, EachOnce places ∧ arrange phases places = [2, 1, 1] ∧
        ∀ other w, EachOnce other → Gives false program (arrange phases other) (.ok w) →
          w ≤ 11 ∧ (other < places → w < 11) := by
  intro program phases
  have signals : (orders (List.finRange 3)).all fun places =>
      ((signal 0 false program (arrange phases places)).value 9).any Except.isOk := by
    subst phases program
    rfl
  have gives (places : List (Fin phases.length)) (once : EachOnce places) :
      ∃ w, Gives false program (arrange phases places) (.ok w) := by
    have some_ok := List.all_eq_true.1 signals places (mem_orders_iff.2 once)
    obtain ⟨result, value, ok⟩ := (Option.any_eq_true _ _).1 some_ok
    cases result with
    | error e => cases ok
    | ok w => exact ⟨w, 0, 9, value⟩
  have finds : Finds false program phases (.ok (11, [2, 1, 1])) := ⟨0, 9, by decide +kernel⟩
  have returns (places : List (Fin phases.length)) (once : EachOnce places) :
      ∃ result, Gives false program (arrange phases places) result := by
    obtain ⟨w, gives₁⟩ := gives places once
    exact ⟨.ok w, gives₁⟩
  obtain ⟨result, only, -, best, -⟩ := best_is_first_maximum false program phases
    fun places once _ => returns places once
  obtain ⟨-, -, first⟩ := best 11 [2, 1, 1] ((only _).1 finds).symm
  exact ⟨gives, finds, first⟩

end Phases

end WordMachine
