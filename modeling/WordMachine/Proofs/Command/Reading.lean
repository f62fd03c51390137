import WordMachine.Command.Invocation

namespace WordMachine.Command

namespace Arguments

def given (batch : List Word) (a : Arguments) : Arguments := { a with input := some batch }

theorem store_given (other : p ≠ .input) (batch : List Word) (a : Arguments) (value : String) :
    (a.given batch).store p value = (a.store p value).map (given batch) := by
  cases p with
  | input => contradiction
  | program | patch | shown | target =>
    simp only [store]
    split <;> rfl
  | log | interactive | feedback | startWhite | freePlay | version | help => rfl

theorem has_given (other : p ≠ .input) (batch : List Word) (a : Arguments) :
    (a.given batch).has p = a.has p := by
  cases p with
  | input => contradiction
  | _ => rfl

theorem supply_given (other : p ≠ .input) (batch : List Word) (a : Arguments) (value : String) :
    (a.given batch).supply p value = (a.supply p value).map (given batch) := by
  rw [supply, supply, has_given other, store_given other]
  split <;> rfl

theorem input_of_supply (h : supply a p value = .ok a₁) :
    a₁.input = a.input ∧ p ≠ .input ∨ a₁.input ≠ none := by
  rw [supply] at h
  split at h
  case isTrue => cases h
  case isFalse =>
    cases p with
    | input =>
      simp only [store] at h
      split at h <;> cases h
      exact .inr (Option.some_ne_none _)
    | program | patch | shown | target =>
      simp only [store] at h
      split at h <;> cases h
      exact .inl ⟨rfl, by decide⟩
    | log | interactive | feedback | startWhite | freePlay | version | help =>
      cases h
      exact .inl ⟨rfl, by decide⟩

end Arguments

theorem Written.eq_of_ofArgument_eq_escape (h : ofArgument argument = .escape) :
    argument = "--" := by
  rw [ofArgument] at h
  split at h
  case h_1 chars => exact String.toList_inj.1 chars
  case h_2 => split at h <;> cases h
  case h_3 => cases h
  case h_4 => cases h

theorem Written.letters_ne_nil (h : ofArgument argument = .short letters) : letters ≠ [] := by
  rw [ofArgument] at h
  split at h
  case h_1 => cases h
  case h_2 => split at h <;> cases h
  case h_3 =>
    cases h
    exact List.cons_ne_nil _ _
  case h_4 => cases h

namespace Reading

def given (batch : List Word) (r : Reading) : Reading :=
  { r with arguments := r.arguments.given batch }

theorem bind_eq_ok_iff {x : Except Stop α} {f : α → Except Stop β} :
    x >>= f = .ok b ↔ ∃ a, x = .ok a ∧ f a = .ok b := by
  cases x <;> simp [bind, Except.bind]

/-- What a step of the reading comes to without input and with it. A step neither changes the known
parameters nor takes input away, and unless it gives input itself, it goes the same way with it. -/
structure Carries (batch : List Word) (r : Reading) (bare full : Except Stop Reading) : Prop where
  known : ∀ {r₁}, bare = .ok r₁ → r₁.known = r.known
  lacks : ∀ {r₁}, bare = .ok r₁ → r₁.arguments.input = none → r.arguments.input = none
  given : ∀ {r₁}, bare = .ok r₁ → r₁.arguments.input = none → full = .ok (r₁.given batch)

namespace Carries

variable {batch : List Word} {r : Reading}

theorem ok (known : r₁.known = r.known) (arguments : r₁.arguments = r.arguments) :
    Carries batch r (.ok r₁) (.ok (r₁.given batch)) where
  known := by
    rintro _ ⟨⟩
    exact known
  lacks := by
    rintro _ ⟨⟩ lacks
    rwa [arguments] at lacks
  given := by
    rintro _ ⟨⟩ -
    rfl

theorem error (stop : Stop) (x : Except Stop Reading) : Carries batch r (.error stop) x where
  known := by rintro _ ⟨⟩
  lacks := by rintro _ ⟨⟩
  given := by rintro _ ⟨⟩

theorem bind {f : Reading → Except Stop Reading} (first : Carries batch r x y)
    (second : ∀ r₁, Carries batch r₁ (f r₁) (f (r₁.given batch))) :
    Carries batch r (x >>= f) (y >>= f) where
  known := by
    intro r₂ h
    obtain ⟨r₁, h₁, h₂⟩ := bind_eq_ok_iff.1 h
    rw [(second r₁).known h₂, first.known h₁]
  lacks := by
    intro r₂ h lacks
    obtain ⟨r₁, h₁, h₂⟩ := bind_eq_ok_iff.1 h
    exact first.lacks h₁ ((second r₁).lacks h₂ lacks)
  given := by
    intro r₂ h lacks
    obtain ⟨r₁, h₁, h₂⟩ := bind_eq_ok_iff.1 h
    exact bind_eq_ok_iff.2
      ⟨_, first.given h₁ ((second r₁).lacks h₂ lacks), (second r₁).given h₂ lacks⟩

theorem of_arguments_eq (h : Carries batch r₁ x y) (known : r₁.known = r.known)
    (arguments : r₁.arguments = r.arguments) : Carries batch r x y where
  known := fun eq => (h.known eq).trans known
  lacks := fun eq lacks => arguments ▸ h.lacks eq lacks
  given := h.given

theorem supply (r : Reading) (p : Parameter) (value : String) :
    Carries batch r (r.supply p value) ((r.given batch).supply p value) := by
  unfold Reading.supply
  cases supplied : r.arguments.supply p value with
  | error e => exact error _ _
  | ok arguments =>
    constructor
    · rintro _ ⟨⟩
      rfl
    · rintro _ ⟨⟩ lacks
      rcases Arguments.input_of_supply supplied with ⟨same, -⟩ | isSome
      · exact same ▸ lacks
      · exact absurd lacks isSome
    · rintro _ ⟨⟩ lacks
      rcases Arguments.input_of_supply supplied with ⟨-, other⟩ | isSome
      · rw [Reading.given, Arguments.supply_given other, supplied]
        rfl
      · exact absurd lacks isSome

theorem settle (r : Reading) : Carries batch r r.settle (r.given batch).settle := by
  obtain ⟨known, arguments, pending, programSeen⟩ := r
  rcases pending with _ | ⟨p, _ | value⟩
  · exact ok rfl rfl
  · exact error _ _
  · exact (supply _ p value).of_arguments_eq rfl rfl

theorem option (r : Reading) (p : Parameter) (value : Option String) :
    Carries batch r (r.option p value) ((r.given batch).option p value) := by
  refine (settle r).bind fun r₁ => ?_
  cases value with
  | none => exact ok rfl rfl
  | some value => exact supply r₁ p value

theorem flag (r : Reading) (p : Parameter) :
    Carries batch r (r.flag p) ((r.given batch).flag p) := by
  refine (settle r).bind fun r₁ => ?_
  cases p with
  | version | help => exact error _ _
  | _ => exact supply r₁ _ ""

theorem long (r : Reading) (name : String) (value : Option String) :
    Carries batch r (r.long name value) ((r.given batch).long name value) := by
  have known : (r.given batch).known = r.known := rfl
  rw [Reading.long, Reading.long, known]
  split
  case h_1 => exact error _ _
  case h_2 p _ =>
    split
    · exact option r p value
    · cases value with
      | some value => exact error _ _
      | none => exact flag r p

theorem short (r : Reading) (letters : List Char) :
    Carries batch r (r.short letters) ((r.given batch).short letters) := by
  induction letters generalizing r with
  | nil => exact ok rfl rfl
  | cons c rest ih =>
    have known : (r.given batch).known = r.known := rfl
    rw [Reading.short, Reading.short, known]
    split
    case h_1 => exact error _ _
    case h_2 p _ =>
      split
      · split <;> exact option r p _
      · exact (flag r p).bind ih

theorem place (r : Reading) (argument : String) :
    Carries batch r (r.place argument) ((r.given batch).place argument) := by
  unfold Reading.place
  by_cases seen : r.programSeen
  · rw [if_pos seen]
    exact error _ _
  · rw [if_neg seen, if_neg (show ¬(r.given batch).programSeen from seen)]
    exact (settle r).bind fun r₁ => ok rfl rfl

theorem foldlM_place (r : Reading) (rest : List String) :
    Carries batch r (rest.foldlM Reading.place r) (rest.foldlM Reading.place (r.given batch)) := by
  induction rest generalizing r with
  | nil => exact ok rfl rfl
  | cons argument rest ih =>
    rw [List.foldlM_cons, List.foldlM_cons]
    exact (place r argument).bind ih

theorem readAll (batch : List Word) (r : Reading) (rest : List String) :
    Carries batch r (r.readAll rest) ((r.given batch).readAll rest) := by
  induction rest generalizing r with
  | nil => exact settle r
  | cons argument rest ih =>
    have claimant : (r.given batch).claimant? argument = r.claimant? argument := rfl
    rw [Reading.readAll, Reading.readAll, claimant]
    cases r.claimant? argument with
    | some p => exact (ih _).of_arguments_eq rfl rfl
    | none =>
      cases Written.ofArgument argument with
      | escape => exact (foldlM_place r rest).bind settle
      | long name value => exact (long r name value).bind ih
      | short letters => exact (short r letters).bind ih
      | plain => exact (place r argument).bind ih

end Carries

theorem eq_of_settle (h : settle r = .ok r₁) :
    r₁ = { r with arguments := r₁.arguments, pending := none } := by
  obtain ⟨known, arguments, pending, programSeen⟩ := r
  rcases pending with _ | ⟨p, _ | value⟩
  · cases h
    rfl
  · cases h
  · simp only [settle, supply] at h
    split at h <;> cases h
    rfl

theorem pending_of_settle (h : settle r = .ok r₁) : r₁.pending = none := by
  rw [eq_of_settle h]

theorem settle_of_pending (h : r.pending = none) : settle r = .ok r := by
  rw [settle, h]

theorem claimant?_of_settle (h : settle r = .ok r₁) (argument : String) :
    r.claimant? argument = none := by
  obtain ⟨known, arguments, pending, programSeen⟩ := r
  rcases pending with _ | ⟨p, _ | value⟩
  · rfl
  · cases h
  · rfl

section

variable {r r₁ : Reading} (h : r.settle = .ok r₁)
include h

theorem settle_of_settle : r₁.settle = r.settle := by
  rw [h, settle_of_pending (pending_of_settle h)]

theorem option_of_settle (p : Parameter) (value : Option String) :
    r.option p value = r₁.option p value := by
  rw [option, option, settle_of_settle h]

theorem flag_of_settle (p : Parameter) : r.flag p = r₁.flag p := by
  rw [flag, flag, settle_of_settle h]

theorem long_of_settle (name : String) (value : Option String) :
    r.long name value = r₁.long name value := by
  have known : r₁.known = r.known := by rw [eq_of_settle h]
  simp only [long, known, option_of_settle h, flag_of_settle h]

theorem short_of_settle (filled : letters ≠ []) : r.short letters = r₁.short letters := by
  have known : r₁.known = r.known := by rw [eq_of_settle h]
  obtain ⟨c, rest, rfl⟩ := List.exists_cons_of_ne_nil filled
  simp only [short, known, option_of_settle h, flag_of_settle h]

theorem place_of_settle (argument : String) : r.place argument = r₁.place argument := by
  have seen : r₁.programSeen = r.programSeen := by rw [eq_of_settle h]
  rw [place, place, seen, settle_of_settle h]

end

def act (r : Reading) (argument : String) : Except Stop Reading :=
  match Written.ofArgument argument with
  | .escape => .ok r
  | .long name value => r.long name value
  | .short letters => r.short letters
  | .plain => r.place argument

theorem readAll_cons_of_claimant (claims : claimant? r argument = some p) (rest : List String) :
    r.readAll (argument :: rest) =
      { r with pending := some (p, some argument) }.readAll rest := by
  rw [readAll, claims]

theorem readAll_cons_of_escape (claims : claimant? r "--" = none) (rest : List String) :
    r.readAll ("--" :: rest) = rest.foldlM place r >>= settle := by
  rw [readAll, claims]
  rfl

theorem readAll_cons (claims : claimant? r argument = none) (literal : argument ≠ "--")
    (rest : List String) : r.readAll (argument :: rest) = r.act argument >>= (·.readAll rest) := by
  rw [readAll, claims, act]
  cases written : Written.ofArgument argument with
  | escape => exact absurd (Written.eq_of_ofArgument_eq_escape written) literal
  | _ => rfl

theorem act_of_settle (h : settle r = .ok r₁) (literal : argument ≠ "--") :
    r.act argument = r₁.act argument := by
  rw [act, act]
  cases written : Written.ofArgument argument with
  | escape => exact absurd (Written.eq_of_ofArgument_eq_escape written) literal
  | long name value => exact long_of_settle h name value
  | short letters => exact short_of_settle h (Written.letters_ne_nil written)
  | plain => exact place_of_settle h argument

theorem readAll_of_settle (h : settle r = .ok r₁) (rest : List String) :
    r.readAll rest = r₁.readAll rest := by
  have claims := claimant?_of_settle h
  have claims₁ := claimant?_of_settle (settle_of_pending (pending_of_settle h))
  cases rest with
  | nil => exact (settle_of_settle h).symm
  | cons argument rest =>
    by_cases literal : argument = "--"
    · subst literal
      rw [readAll_cons_of_escape (claims _), readAll_cons_of_escape (claims₁ _)]
      cases rest with
      | nil => exact (settle_of_settle h).symm
      | cons argument rest => rw [List.foldlM_cons, List.foldlM_cons, place_of_settle h]
    · rw [readAll_cons (claims _) literal, readAll_cons (claims₁ _) literal,
        act_of_settle h literal]

/-- A command line is read in two parts, if the first leaves no option without its value and does
not hold the escape. -/
theorem readAll_append (literal : "--" ∉ front) (h : readAll r front = .ok r₁)
    (rest : List String) : r.readAll (front ++ rest) = r₁.readAll rest := by
  induction front generalizing r with
  | nil => exact readAll_of_settle h rest
  | cons argument front ih =>
    rw [List.mem_cons, not_or] at literal
    rw [List.cons_append]
    cases claims : r.claimant? argument with
    | some p =>
      rw [readAll_cons_of_claimant claims] at h ⊢
      exact ih literal.2 h
    | none =>
      rw [readAll_cons claims (Ne.symm literal.1)] at h ⊢
      obtain ⟨r₂, acted, h⟩ := bind_eq_ok_iff.1 h
      rw [acted]
      exact ih literal.2 h

theorem pending_of_readAll (h : readAll r rest = .ok r₁) : r₁.pending = none := by
  induction rest generalizing r with
  | nil => exact pending_of_settle h
  | cons argument rest ih =>
    rw [readAll] at h
    split at h
    · exact ih h
    · split at h
      all_goals obtain ⟨r₂, -, h⟩ := bind_eq_ok_iff.1 h
      case h_1 => exact pending_of_settle h
      all_goals exact ih h

section

variable {r : Reading} {batch : List Word} (lacks : r.arguments.input = none)
  (listed : Batch.ofText text = .ok batch)
include lacks listed

theorem supply_input : r.supply .input text = .ok (r.given batch) := by
  simp [supply, Arguments.supply, Arguments.has, Arguments.store, lacks, listed, given,
    Arguments.given]

theorem option_input (settled : r.pending = none) :
    r.option .input (some text) = .ok (r.given batch) := by
  rw [option, settle_of_pending settled]
  exact supply_input lacks listed

theorem option_input_readAll (settled : r.pending = none) (rest : List String) :
    r.option .input none >>= (·.readAll (text :: rest)) = (r.given batch).readAll rest := by
  have same : { r with pending := none } = r := by rw [← settled]
  have pending : { r with pending := some (.input, some text) }.settle = .ok (r.given batch) := by
    rw [settle]
    dsimp only
    rw [same, supply_input lacks listed]
  have claims : { r with pending := some (.input, none) }.claimant? text = some .input := rfl
  rw [option, settle_of_pending settled, ← readAll_of_settle pending]
  exact readAll_cons_of_claimant claims rest

end

inductive GivesInput (text : String) : List String → Prop
  | long : GivesInput text ["--input", text]
  | longJoined : GivesInput text ["--input=" ++ text]
  | short : GivesInput text ["-i", text]
  | shortJoined : GivesInput text ["-i" ++ text]
  | shortEquals : GivesInput text ["-i=" ++ text]

section

variable {r : Reading} (known : r.known = Subcommand.run.parameters)
include known

theorem long_input (value : Option String) : r.long "input" value = r.option .input value := by
  rw [long, known]
  rfl

theorem short_input : r.short ['i'] = r.option .input none := by
  rw [short, known]
  rfl

theorem short_input_equals (value : List Char) :
    r.short ('i' :: '=' :: value) = r.option .input (some (String.ofList value)) := by
  rw [short, known]
  rfl

theorem short_input_cons (hc : c ≠ '=') (value : List Char) :
    r.short ('i' :: c :: value) = r.option .input (some (String.ofList (c :: value))) := by
  have found : Subcommand.run.parameters.find? (fun p => p.short? = some 'i') = some .input := rfl
  have takes : Parameter.input.takesValue := rfl
  rw [short, known, found]
  dsimp only
  rw [if_pos takes]
  split
  case h_1 => contradiction
  case h_2 same => exact absurd (List.cons.inj same).1 hc
  case h_3 => rfl

end

theorem readAll_cons_long (settled : r.pending = none)
    (written : Written.ofArgument argument = .long name value) (rest : List String) :
    readAll r (argument :: rest) = r.long name value >>= (·.readAll rest) := by
  rw [readAll, claimant?_of_settle (settle_of_pending settled), written]

theorem readAll_cons_short (settled : r.pending = none)
    (written : Written.ofArgument argument = .short letters) (rest : List String) :
    readAll r (argument :: rest) = r.short letters >>= (·.readAll rest) := by
  rw [readAll, claimant?_of_settle (settle_of_pending settled), written]

theorem readAll_givesInput {r : Reading} (known : r.known = Subcommand.run.parameters)
    (settled : r.pending = none) (lacks : r.arguments.input = none)
    (listed : Batch.ofText text = .ok batch) (starts : text.toList = c :: chars) (hc : c ≠ '=')
    (form : GivesInput text written) (rest : List String) :
    r.readAll (written ++ rest) = (r.given batch).readAll rest := by
  cases form with
  | long =>
    have written : Written.ofArgument "--input" = .long "input" none := rfl
    rw [List.cons_append, readAll_cons_long settled written, long_input known]
    exact option_input_readAll lacks listed settled rest
  | longJoined =>
    have written : Written.ofArgument ("--input=" ++ text) =
        .long "input" (some (String.ofList text.toList)) := by
      rw [Written.ofArgument, String.toList_append]
      rfl
    rw [String.ofList_toList] at written
    rw [List.cons_append, readAll_cons_long settled written, long_input known,
      option_input lacks listed settled]
    rfl
  | short =>
    have written : Written.ofArgument "-i" = .short ['i'] := rfl
    rw [List.cons_append, readAll_cons_short settled written, short_input known]
    exact option_input_readAll lacks listed settled rest
  | shortJoined =>
    have written : Written.ofArgument ("-i" ++ text) = .short ('i' :: c :: chars) := by
      rw [Written.ofArgument, String.toList_append, starts]
      rfl
    rw [List.cons_append, readAll_cons_short settled written, short_input_cons known hc, ← starts,
      String.ofList_toList, option_input lacks listed settled]
    rfl
  | shortEquals =>
    have written : Written.ofArgument ("-i=" ++ text) = .short ('i' :: '=' :: text.toList) := by
      rw [Written.ofArgument, String.toList_append]
      rfl
    rw [List.cons_append, readAll_cons_short settled written, short_input_equals known,
      String.ofList_toList, option_input lacks listed settled]
    rfl

end Reading

theorem Subcommand.name_of_ofName? (h : ofName? argument = some subcommand) :
    subcommand.name = argument := by
  simpa using List.find?_some h

theorem Reading.readLeading_eq_ok {line : List String}
    (h : readLeading r line = .ok (r₁, subcommand, behind)) :
    ∃ leading, line = leading ++ subcommand.name :: behind ∧
      ∀ rest, r.readLeading (leading ++ subcommand.name :: rest) = .ok (r₁, subcommand, rest) := by
  induction line generalizing r with
  | nil => cases h
  | cons argument line ih =>
    have later (r₂ : Reading) (step : ∀ rest, r.readLeading (argument :: rest) =
        r₂.readLeading rest) : ∃ leading, argument :: line = leading ++ subcommand.name :: behind ∧
          ∀ rest, r.readLeading (leading ++ subcommand.name :: rest) =
            .ok (r₁, subcommand, rest) := by
      rw [step] at h
      obtain ⟨leading, rfl, found⟩ := ih h
      exact ⟨argument :: leading, rfl, fun rest => (step _).trans (found rest)⟩
    simp only [readLeading] at h
    cases claims : r.claimant? argument with
    | some p =>
      refine later { r with pending := some (p, some argument) } fun rest => ?_
      rw [readLeading, claims]
    | none =>
      cases written : Written.ofArgument argument with
      | escape => simp [claims, written] at h
      | long name value | short letters =>
        simp only [claims, written] at h
        obtain ⟨r₂, read, -⟩ := bind_eq_ok_iff.1 h
        refine later r₂ fun rest => ?_
        rw [readLeading, claims, written]
        dsimp only
        rw [read]
        rfl
      | plain =>
        simp only [claims, written] at h
        split at h
        case h_1 subcommand₁ name =>
          cases h
          have same := Subcommand.name_of_ofName? name
          refine ⟨[], by rw [same]; rfl, fun rest => ?_⟩
          rw [same, List.nil_append, readLeading, claims, written]
          dsimp only
          rw [name]
        case h_2 => cases h

theorem Action.ofArguments?_eq_run_iff {program : String} {input : Option (List Word)} :
    ofArguments? subcommand a = some (.run program input patches shown interactive) ↔
      subcommand = .run ∧ a.program = some program ∧ a.input = input ∧ a.patches = patches ∧
        a.shown = shown ∧ a.interactive = interactive := by
  rw [ofArguments?]
  cases a.program with
  | none => simp
  | some path =>
    cases subcommand with
    | run => simp
    | search => cases a.target <;> simp
    | _ => simp

theorem Invocation.parse_eq_ok_run_iff {filter : Option String} {line : List String} :
    parse line = .ok ⟨filter, .run path input patches shown interactive⟩ ↔
      ∃ leading behind reading leading₁,
        { known := leadingParameters : Reading }.readLeading line = .ok (leading, .run, behind) ∧
        { known := Subcommand.run.parameters : Reading }.readAll behind = .ok reading ∧
        Action.ofArguments? .run reading.arguments =
          some (.run path input patches shown interactive) ∧
        leading.settle = .ok leading₁ ∧
        (reading.arguments.log <|> leading₁.arguments.log) = filter := by
  constructor
  · intro h
    obtain ⟨⟨leading, subcommand, behind⟩, leads, h⟩ := Reading.bind_eq_ok_iff.1 h
    obtain ⟨reading, reads, h⟩ := Reading.bind_eq_ok_iff.1 h
    dsimp only at reads h
    cases asked : Action.ofArguments? subcommand reading.arguments with
    | none =>
      rw [asked] at h
      cases h
    | some action =>
      rw [asked] at h
      obtain ⟨leading₁, settled, h⟩ := Reading.bind_eq_ok_iff.1 h
      cases h
      obtain ⟨rfl, -⟩ := Action.ofArguments?_eq_run_iff.1 asked
      exact ⟨leading, behind, reading, leading₁, leads, reads, asked, settled, rfl⟩
  · rintro ⟨leading, behind, reading, leading₁, leads, reads, asked, settled, rfl⟩
    rw [parse, leads]
    refine Reading.bind_eq_ok_iff.2 ⟨_, rfl, Reading.bind_eq_ok_iff.2 ⟨reading, reads, ?_⟩⟩
    rw [asked]
    exact Reading.bind_eq_ok_iff.2 ⟨leading₁, settled, rfl⟩

theorem Invocation.parse_givesInput {filter : Option String} {line : List String}
    (listed : Batch.ofText text = .ok batch) (starts : text.toList = c :: chars) (hc : c ≠ '=')
    (h : parse line = .ok ⟨filter, .run path none patches shown interactive⟩) :
    ∃ leading behind, line = leading ++ "run" :: behind ∧
      ∀ front rest r written, behind = front ++ rest → "--" ∉ front →
        { known := Subcommand.run.parameters : Reading }.readAll front = .ok r →
        Reading.GivesInput text written →
        parse (leading ++ "run" :: (front ++ (written ++ rest))) =
          .ok ⟨filter, .run path (some batch) patches shown interactive⟩ := by
  obtain ⟨leading, behind, reading, leading₁, leads, reads, asked, settled, log⟩ :=
    parse_eq_ok_run_iff.1 h
  obtain ⟨before, rfl, found⟩ := Reading.readLeading_eq_ok leads
  refine ⟨before, behind, rfl, ?_⟩
  rintro front rest r written rfl literal complete form
  have reads₁ := Reading.readAll_append literal complete
  rw [reads₁] at reads
  obtain ⟨-, program, lacks, rest₁⟩ := Action.ofArguments?_eq_run_iff.1 asked
  have known := (Reading.Carries.readAll batch _ front).known complete
  have carries := Reading.Carries.readAll batch r rest
  have given : { known := Subcommand.run.parameters : Reading }.readAll
      (front ++ (written ++ rest)) = .ok (reading.given batch) := by
    rw [reads₁, Reading.readAll_givesInput known (Reading.pending_of_readAll complete)
      (carries.lacks reads lacks) listed starts hc form]
    exact carries.given reads lacks
  exact parse_eq_ok_run_iff.2 ⟨leading, _, _, leading₁, found _, given,
    Action.ofArguments?_eq_run_iff.2 ⟨rfl, program, rfl, rest₁⟩, settled, log⟩

end WordMachine.Command
