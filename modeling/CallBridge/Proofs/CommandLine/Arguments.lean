import CallBridge.CommandLine.Arguments

/-!
# Argument lists without -v and -q

The options `-v` and `-q` can stand anywhere in an argument list, in a long form or joined to other
letters.  `withoutVerbosity` takes them out of the list itself, before anything is read.

* `Accepts` is the course of an accepted list, one argument after the other; `accepts_iff` says that
  reading takes this course;
* `GoesAlong`: changes of the options so far that make no difference to an option that is added;
* `Given.plain` are given options without `-v` and `-q`;
* `parse_withoutVerbosity`: a list that is accepted is accepted without `-v` and `-q` as well, and
  the other options are read as before.
-/

namespace CallBridge.CommandLine

variable {g g' : Given} {awaiting : Option ValueOption} {argument value : String}
  {letters : List Char} {progress : Progress} {request : Request}

/-! ## The course of an accepted list -/

/-- An argument list is accepted, after the options so far and with an option that may await its
value. -/
inductive Accepts : Given → Option ValueOption → List String → Request → Prop where
  | done {g : Given} {request : Request} (hrequest : g.request = .ok request) :
    Accepts g none [] request
  | mark {g : Given} {request : Request} (hrequest : g.request = .ok request) :
    Accepts g none ["--"] request
  | finished {g : Given} {argument : String} {rest : List String} {request : Request}
    (hoption : isOption argument = true)
    (hread : readOption g argument = .ok (.finished request)) :
    Accepts g none (argument :: rest) request
  | option {g g' : Given} {awaiting : Option ValueOption} {argument : String} {rest : List String}
    {request : Request} (hoption : isOption argument = true)
    (hread : readOption g argument = .ok (.more g' awaiting))
    (hrest : Accepts g' awaiting rest request) :
    Accepts g none (argument :: rest) request
  | value {g g' : Given} {option : ValueOption} {argument : String} {rest : List String}
    {request : Request} (hvalue : isOption argument = false) (hmark : argument ≠ "--")
    (hadd : g.addValue option argument = .ok g') (hrest : Accepts g' none rest request) :
    Accepts g (some option) (argument :: rest) request

theorem accepts_of_parseFrom {arguments : List String}
    (h : parseFrom g awaiting arguments = .ok request) : Accepts g awaiting arguments request := by
  induction arguments generalizing g awaiting with
  | nil =>
    cases awaiting with
    | none => exact .done h
    | some option => cases h
  | cons argument rest ih =>
    unfold parseFrom at h
    by_cases hmark : argument = "--"
    · subst hmark
      cases awaiting with
      | some option => cases h
      | none =>
        cases rest with
        | nil => exact .mark h
        | cons extra rest => cases h
    · cases hoption : isOption argument with
      | true =>
        cases awaiting with
        | some option => simp [hoption] at h
        | none =>
          simp only [hoption, Bool.true_or, if_true, Option.isSome_none, Bool.false_eq_true,
            if_false, hmark] at h
          cases hread : readOption g argument with
          | error fault => simp [hread] at h
          | ok progress =>
            cases progress with
            | finished request =>
              simp only [hread, Except.ok.injEq] at h
              exact .finished hoption (h ▸ hread)
            | more g' awaiting =>
              simp only [hread] at h
              exact .option hoption hread (ih h)
      | false =>
        simp only [hoption, Bool.false_or, beq_iff_eq, hmark, if_false] at h
        cases awaiting with
        | none => cases h
        | some option =>
          cases hadd : g.addValue option argument with
          | error fault => simp [hadd] at h
          | ok g' =>
            simp only [hadd] at h
            exact .value hoption hmark hadd (ih h)

theorem parseFrom_of_accepts {arguments : List String} (h : Accepts g awaiting arguments request) :
    parseFrom g awaiting arguments = .ok request := by
  induction h with
  | done hrequest => exact hrequest
  | mark hrequest => exact hrequest
  | @finished g argument rest request hoption hread =>
    have hmark : argument ≠ "--" := by
      rintro rfl
      cases hoption
    simp [parseFrom, hoption, hmark, hread]
  | @option g g' awaiting argument rest request hoption hread hrest ih =>
    have hmark : argument ≠ "--" := by
      rintro rfl
      cases hoption
    simp [parseFrom, hoption, hmark, hread, ih]
  | value hvalue hmark hadd hrest ih => simp [parseFrom, hvalue, hmark, hadd, ih]

/-- Reading a list takes the course of an accepted one, if it comes to an end. -/
theorem accepts_iff {arguments : List String} :
    Accepts g awaiting arguments request ↔ parseFrom g awaiting arguments = .ok request :=
  ⟨parseFrom_of_accepts, accepts_of_parseFrom⟩

/-- An option that adds to the others and awaits no value leaves them as it has made them. -/
theorem exists_of_map_more {added : Except UsageFault Given}
    (h : added.map (Progress.more · none) = .ok progress) :
    ∃ g', added = .ok g' ∧ progress = .more g' none := by
  cases added with
  | error fault => cases h
  | ok g' =>
    cases h
    exact ⟨g', rfl, rfl⟩

/-! ## Changing the options so far -/

/-- A request with its options changed. -/
def Request.map (change : Given → Given) : Request → Request
  | .generate given => .generate (change given)
  | .version => .version
  | .help => .help

/-- The outcome of an argument with its options changed. -/
def Progress.map (change : Given → Given) : Progress → Progress
  | .more given awaiting => .more (change given) awaiting
  | .finished request => .finished (request.map change)

/-- A change of the options so far goes along with an option: it makes no difference whether the option
is added before or afterwards. -/
def GoesAlong (change : Given → Given) : OptionName → Prop
  | .value option => ∀ g g' value, g.addValue option value = .ok g' →
      (change g).addValue option value = .ok (change g')
  | .flag flag => ∀ g g', g.addFlag flag = .ok g' → (change g).addFlag flag = .ok (change g')
  | .verbose => ∀ g : Given, change { g with verbose := g.verbose + 1 } =
      { change g with verbose := (change g).verbose + 1 }
  | .version => True
  | .help => True

/-- A long option is read as before after a change that goes along with it. -/
theorem longOption_map {change : Given → Given} {name : String} {attached : Option String}
    (hvalue : ∀ option, OptionName.ofLong? name = some (.value option) →
      GoesAlong change (.value option))
    (halone : attached = none → ∀ option, OptionName.ofLong? name = some option →
      GoesAlong change option)
    (h : longOption g argument name attached = .ok progress) :
    longOption (change g) argument name attached = .ok (progress.map change) := by
  unfold longOption at h ⊢
  cases hoption : OptionName.ofLong? name with
  | none => simp [hoption] at h
  | some option =>
    rw [hoption] at h
    cases attached with
    | some value =>
      cases option with
      | value option =>
        obtain ⟨g', hadd, rfl⟩ := exists_of_map_more h
        simp only [hvalue option hoption g g' value hadd]
        rfl
      | flag | verbose | version | help => cases h
    | none =>
      have halong := halone rfl option hoption
      cases option with
      | value option =>
        cases h
        rfl
      | flag flag =>
        obtain ⟨g', hadd, rfl⟩ := exists_of_map_more h
        simp only [halong g g' hadd]
        rfl
      | verbose =>
        cases h
        rw [Progress.map, halong g]
      | version | help =>
        cases h
        rfl

/-! ## Options without -v and -q -/

/-- The options without `-v` and `-q`. -/
def Given.plain (g : Given) : Given :=
  { g with flags := g.flags.filter (· != .quiet), verbose := 0 }

/-- A request without `-v` and `-q`. -/
def Request.plain : Request → Request
  | .generate given => .generate given.plain
  | .version => .version
  | .help => .help

/-- The outcome of an argument without `-v` and `-q`. -/
def Progress.plain : Progress → Progress
  | .more given awaiting => .more given.plain awaiting
  | .finished request => .finished request.plain

theorem has_plain {flag : Flag} (hflag : flag ≠ .quiet) (g : Given) :
    g.plain.has flag = g.has flag := by
  rw [Bool.eq_iff_iff]
  simp [Given.has, Given.plain, hflag]

theorem addValue_plain {option : ValueOption} (h : g.addValue option value = .ok g') :
    g.plain.addValue option value = .ok g'.plain := by
  rw [Given.addValue] at h ⊢
  split at h
  · cases h
  · next hnew =>
    split at h
    · cases h
    · next hvalue =>
      cases h
      rw [if_neg hvalue]
      exact if_neg hnew

theorem addFlag_plain {flag : Flag} (hflag : flag ≠ .quiet) (h : g.addFlag flag = .ok g') :
    g.plain.addFlag flag = .ok g'.plain := by
  rw [Given.addFlag] at h ⊢
  rw [has_plain hflag]
  split at h
  · cases h
  · next hnew =>
    cases h
    simp [hnew, Given.plain, hflag]

theorem plain_of_addFlag_quiet (h : g.addFlag .quiet = .ok g') : g'.plain = g.plain := by
  rw [Given.addFlag] at h
  split at h
  · cases h
  · cases h
    simp [Given.plain]

theorem request_plain (h : g.request = .ok request) : g.plain.request = .ok request.plain := by
  unfold Given.request at h
  split at h
  · cases h
  · next hsource =>
    cases h
    exact if_neg hsource

/-! ## Taking -v and -q out of arguments -/

/-- Joined short options without `-v` and `-q`.  What follows the letter `o` is the value of this
option. -/
def withoutLetters : List Char → List Char
  | [] => []
  | letter :: rest =>
    if letter = 'v' ∨ letter = 'q' then withoutLetters rest
    else if letter = 'o' then letter :: rest
    else letter :: withoutLetters rest

/-- What is left of an argument without `-v` and `-q`, if anything is left. -/
def withoutVerbosity? (argument : String) : Option String :=
  if argument = "--verbose" ∨ argument = "--quiet" then none
  else
    match argument.toList with
    | '-' :: '-' :: _ => some argument
    | '-' :: letter :: letters =>
      match withoutLetters (letter :: letters) with
      | [] => none
      | left => some (String.ofList ('-' :: left))
    | _ => some argument

/-- An argument list without `-v` and `-q`. -/
def withoutVerbosity (arguments : List String) : List String :=
  arguments.filterMap withoutVerbosity?

/-! ### Joined short options -/

/-- A letter that is not `v`, `q` or `o` ends the reading, one way or the other. -/
theorem letter_cases (letter : Char) :
    letter = 'v' ∨ letter = 'q' ∨ letter = 'o' ∨
      (¬(letter = 'v' ∨ letter = 'q') ∧ letter ≠ 'o') ∧
        (OptionName.ofShort? letter = none ∨ OptionName.ofShort? letter = some .version ∨
          OptionName.ofShort? letter = some .help) := by
  by_cases hv : letter = 'v'
  · exact .inl hv
  by_cases hq : letter = 'q'
  · exact .inr (.inl hq)
  by_cases ho : letter = 'o'
  · exact .inr (.inr (.inl ho))
  refine .inr (.inr (.inr ⟨⟨not_or.mpr ⟨hv, hq⟩, ho⟩, ?_⟩))
  rw [OptionName.ofShort?, if_neg ho, if_neg hq, if_neg hv]
  by_cases hversion : letter = 'V'
  · exact .inr (.inl (if_pos hversion))
  · rw [if_neg hversion]
    by_cases hhelp : letter = 'h'
    · exact .inr (.inr (if_pos hhelp))
    · exact .inl (if_neg hhelp)

theorem shortOptions_quiet (h : shortOptions g argument ('q' :: letters) = .ok progress) :
    ∃ g', g.addFlag .quiet = .ok g' ∧ shortOptions g' argument letters = .ok progress := by
  have hname : OptionName.ofShort? 'q' = some (.flag .quiet) := rfl
  unfold shortOptions at h
  simp only [hname] at h
  cases hadd : g.addFlag .quiet with
  | error fault => simp [hadd] at h
  | ok g' =>
    simp only [hadd] at h
    exact ⟨g', rfl, h⟩

theorem shortOptions_outfile (g : Given) (argument : String) (letters : List Char) :
    shortOptions g argument ('o' :: letters) =
      if letters.isEmpty then .ok (.more g (some .outfile))
      else (g.addValue .outfile
        (String.ofList (if letters.head? = some '=' then letters.tail else letters))).map
          (.more · none) :=
  rfl

/-- Joined short options are read as before without `-v` and `-q`. -/
theorem shortOptions_withoutLetters (h : shortOptions g argument letters = .ok progress)
    (left : String) :
    shortOptions g.plain left (withoutLetters letters) = .ok progress.plain := by
  induction letters generalizing g with
  | nil =>
    cases h
    rfl
  | cons letter rest ih =>
    obtain rfl | rfl | rfl | ⟨⟨hverbosity, houtfile⟩, hname⟩ := letter_cases letter
    · exact ih (g := { g with verbose := g.verbose + 1 }) h
    · obtain ⟨g', hadd, hrest⟩ := shortOptions_quiet h
      rw [← plain_of_addFlag_quiet hadd]
      exact ih hrest
    · have hkept : withoutLetters ('o' :: rest) = 'o' :: rest := rfl
      rw [shortOptions_outfile] at h
      rw [hkept, shortOptions_outfile]
      split at h
      · next hempty =>
        cases h
        exact if_pos hempty
      · next hvalue =>
        obtain ⟨g', hadd, rfl⟩ := exists_of_map_more h
        rw [if_neg hvalue, addValue_plain hadd]
        rfl
    · rw [withoutLetters, if_neg hverbosity, if_neg houtfile]
      unfold shortOptions at h ⊢
      obtain hname | hname | hname := hname
      · simp [hname] at h
      · simp only [hname, Except.ok.injEq] at h ⊢
        exact h ▸ rfl
      · simp only [hname, Except.ok.injEq] at h ⊢
        exact h ▸ rfl

/-- No short option is called `-`. -/
theorem ne_of_shortOptions {letter : Char}
    (h : shortOptions g argument (letter :: letters) = .ok progress) : letter ≠ '-' := by
  rintro rfl
  cases h

/-! ### Long options -/

/-- Whether an option is `-v` or `-q`. -/
def OptionName.isVerbosity : OptionName → Bool
  | .verbose => true
  | .flag .quiet => true
  | _ => false

theorem any_isVerbosity_ofLong? {name : String} (hverbose : name ≠ "verbose")
    (hquiet : name ≠ "quiet") : (OptionName.ofLong? name).any OptionName.isVerbosity = false := by
  simp only [OptionName.ofLong?, if_neg hverbose, if_neg hquiet,
    apply_ite (Option.any OptionName.isVerbosity), Option.any_some, Option.any_none,
    OptionName.isVerbosity, ite_self]

/-- Leaving out `-v` and `-q` goes along with all other options. -/
theorem goesAlong_plain {option : OptionName} (h : option.isVerbosity = false) :
    GoesAlong Given.plain option := by
  cases option with
  | value option => exact fun g g' value => addValue_plain
  | flag flag =>
    have hflag : flag ≠ .quiet := by
      rintro rfl
      cases h
    exact fun g g' => addFlag_plain hflag
  | verbose => cases h
  | version | help => exact trivial

theorem map_plain (progress : Progress) : progress.map Given.plain = progress.plain := by
  cases progress with
  | more given awaiting => rfl
  | finished request => cases request <;> rfl

/-- A long option that is not `--verbose` or `--quiet` is read as before without `-v` and `-q`. -/
theorem longOption_plain {name : String} {attached : Option String}
    (hname : attached = none → (OptionName.ofLong? name).any OptionName.isVerbosity = false)
    (h : longOption g argument name attached = .ok progress) :
    longOption g.plain argument name attached = .ok progress.plain := by
  rw [← map_plain]
  refine longOption_map (fun option _ => goesAlong_plain rfl) (fun hnone option hoption => ?_) h
  have hother := hname hnone
  rw [hoption] at hother
  exact goesAlong_plain hother

/-! ### One argument -/

theorem option_cases (hoption : isOption argument = true) :
    (∃ name, argument.toList = '-' :: '-' :: name) ∨
      ∃ letter letters, letter ≠ '-' ∧ argument.toList = '-' :: letter :: letters := by
  unfold isOption at hoption
  split at hoption
  · cases hoption
  · next letter letters _ hchars =>
    by_cases hletter : letter = '-'
    · subst hletter
      exact .inl ⟨letters, hchars⟩
    · exact .inr ⟨letter, letters, hletter, hchars⟩
  · cases hoption

section Short

variable {letter : Char} (hletter : letter ≠ '-')
  (hchars : argument.toList = '-' :: letter :: letters)

include hletter hchars

theorem isOption_short : isOption argument = true := by
  simp [isOption, hchars, hletter]

theorem readOption_short (g : Given) :
    readOption g argument = shortOptions g argument (letter :: letters) := by
  simp [readOption, hchars, hletter]

theorem withoutVerbosity?_short :
    withoutVerbosity? argument =
      match withoutLetters (letter :: letters) with
      | [] => none
      | left => some (String.ofList ('-' :: left)) := by
  have hname : ¬(argument = "--verbose" ∨ argument = "--quiet") := by
    have hdash : '-' ≠ letter := hletter.symm
    rintro (rfl | rfl) <;> simp [hdash] at hchars
  simp [withoutVerbosity?, hname, hchars]

end Short

section Long

variable {name : String} {attached : Option String}

/-- The name of a long option, and its value if one is attached. -/
def longParts? (argument : String) : Option (String × Option String) :=
  match argument.toList with
  | '-' :: '-' :: cs =>
    some (String.ofList (cs.takeWhile (· != '=')),
      match cs.dropWhile (· != '=') with
      | [] => none
      | _ :: value => some (String.ofList value))
  | _ => none

theorem exists_longParts? {cs : List Char} (hchars : argument.toList = '-' :: '-' :: cs) :
    ∃ name attached, longParts? argument = some (name, attached) := by
  rw [longParts?, hchars]
  exact ⟨_, _, rfl⟩

theorem readOption_of_longParts? (h : longParts? argument = some (name, attached)) (g : Given) :
    readOption g argument = longOption g argument name attached := by
  unfold longParts? at h
  split at h
  · next cs hchars =>
    cases h
    rw [readOption, hchars]
    rfl
  · cases h

/-- A long option with no value attached is its name behind two dashes. -/
theorem eq_of_longParts? (h : longParts? argument = some (name, none)) :
    argument = "--" ++ name := by
  unfold longParts? at h
  split at h
  · next cs hchars =>
    obtain ⟨rfl, hattached⟩ := Prod.mk.inj (Option.some.inj h)
    have hrest : cs.dropWhile (· != '=') = [] := by
      split at hattached
      · next hrest => exact hrest
      · cases hattached
    have hwhole := List.takeWhile_append_dropWhile (p := (· != '=')) (l := cs)
    rw [hrest, List.append_nil] at hwhole
    rw [← String.toList_inj, hchars, String.toList_append, hwhole]
    simp
  · cases h

theorem exists_readOption_long {cs : List Char} (hchars : argument.toList = '-' :: '-' :: cs)
    (hverbose : argument ≠ "--verbose") (hquiet : argument ≠ "--quiet") :
    ∃ longName attached,
      (attached = none → (OptionName.ofLong? longName).any OptionName.isVerbosity = false) ∧
      ∀ g, readOption g argument = longOption g argument longName attached := by
  obtain ⟨name, attached, hparts⟩ := exists_longParts? hchars
  refine ⟨name, attached, fun hattached => ?_, readOption_of_longParts? hparts⟩
  subst hattached
  have hargument := eq_of_longParts? hparts
  refine any_isVerbosity_ofLong? ?_ ?_
  · rintro rfl
    exact hverbose hargument
  · rintro rfl
    exact hquiet hargument

end Long

/-- Without `-v` and `-q`, either nothing is left of an option and it changes nothing else, or what
is left of it is an option that is read as before. -/
theorem readOption_withoutVerbosity (hoption : isOption argument = true)
    (h : readOption g argument = .ok progress) :
    (withoutVerbosity? argument = none ∧ progress.plain = .more g.plain none) ∨
      ∃ left, withoutVerbosity? argument = some left ∧ isOption left = true ∧
        readOption g.plain left = .ok progress.plain := by
  by_cases hverbose : argument = "--verbose"
  · subst hverbose
    cases h
    exact .inl ⟨rfl, rfl⟩
  by_cases hquiet : argument = "--quiet"
  · subst hquiet
    change (g.addFlag .quiet).map (Progress.more · none) = .ok progress at h
    obtain ⟨g', hadd, rfl⟩ := exists_of_map_more h
    exact .inl ⟨rfl, congrArg (Progress.more · none) (plain_of_addFlag_quiet hadd)⟩
  obtain ⟨name, hchars⟩ | ⟨letter, letters, hletter, hchars⟩ := option_cases hoption
  · obtain ⟨longName, attached, hname, hread⟩ := exists_readOption_long hchars hverbose hquiet
    rw [hread] at h
    refine .inr ⟨argument, by simp [withoutVerbosity?, hverbose, hquiet, hchars], hoption, ?_⟩
    rw [hread]
    exact longOption_plain hname h
  · rw [readOption_short hletter hchars] at h
    rw [withoutVerbosity?_short hletter hchars]
    have hread := shortOptions_withoutLetters h
    cases hkept : withoutLetters (letter :: letters) with
    | nil =>
      rw [hkept] at hread
      exact .inl ⟨rfl, (Except.ok.inj (hread "")).symm⟩
    | cons first rest =>
      rw [hkept] at hread
      have hfirst := ne_of_shortOptions (hread "")
      have hkeptChars : (String.ofList ('-' :: first :: rest)).toList = '-' :: first :: rest :=
        String.toList_ofList
      refine .inr ⟨_, rfl, isOption_short hfirst hkeptChars, ?_⟩
      rw [readOption_short hfirst hkeptChars]
      exact hread _

theorem ne_of_value (hvalue : isOption argument = false) :
    argument ≠ "--verbose" ∧ argument ≠ "--quiet" := by
  constructor
  · rintro rfl
    cases hvalue
  · rintro rfl
    cases hvalue

/-- A value stays as it is. -/
theorem withoutVerbosity?_value (hvalue : isOption argument = false) :
    withoutVerbosity? argument = some argument := by
  rw [withoutVerbosity?, if_neg (not_or.mpr (ne_of_value hvalue))]
  split
  · rfl
  · next letter letters hdash hchars =>
    have hletter : letter ≠ '-' := hdash
    rw [isOption_short hletter hchars] at hvalue
    cases hvalue
  · rfl

/-! ## Reading a list without -v and -q -/

theorem Accepts.plain {arguments : List String} (h : Accepts g awaiting arguments request) :
    Accepts g.plain awaiting (withoutVerbosity arguments) request.plain := by
  induction h with
  | done hrequest => exact .done (request_plain hrequest)
  | mark hrequest => exact .mark (request_plain hrequest)
  | @finished g argument rest request hoption hread =>
    obtain ⟨-, hplain⟩ | ⟨left, hleft, hoption, hread⟩ := readOption_withoutVerbosity hoption hread
    · cases hplain
    · rw [withoutVerbosity, List.filterMap_cons_some hleft]
      exact .finished hoption hread
  | @option g g' awaiting argument rest request hoption hread hrest ih =>
    obtain ⟨hnone, hplain⟩ | ⟨left, hleft, hoption, hread⟩ :=
      readOption_withoutVerbosity hoption hread
    · obtain ⟨hsame, hawaiting⟩ := Progress.more.inj hplain
      rw [withoutVerbosity, List.filterMap_cons_none hnone, ← hsame, ← hawaiting]
      exact ih
    · rw [withoutVerbosity, List.filterMap_cons_some hleft]
      exact .option hoption hread ih
  | value hvalue hmark hadd hrest ih =>
    rw [withoutVerbosity, List.filterMap_cons_some (withoutVerbosity?_value hvalue)]
    exact .value hvalue hmark (addValue_plain hadd) ih

/-- A list that is accepted is accepted without `-v` and `-q` as well, and asks for the same but for
them. -/
theorem parse_withoutVerbosity {arguments : List String}
    (h : Request.parse arguments = .ok request) :
    Request.parse (withoutVerbosity arguments) = .ok request.plain :=
  accepts_iff.mp (accepts_iff.mpr h).plain

example : withoutVerbosity ["-vvq", "--verbose", "-vofile", "--header", "-", "-ov", "--"] =
    ["-ofile", "--header", "-", "-ov", "--"] := by
  decide +kernel

end CallBridge.CommandLine
