import CallBridge.Proofs.CommandLine.Arguments

/-!
# How much an argument list asks to be told

The letters `v` and `q` of an argument list are counted in the list itself: `verbosityMarks` finds
them in an argument, and `verbosity` makes a number of those in all arguments.  Reading the list
keeps the count.

* `Given.Takes` says that options are added to others by taking some letters and no others;
  `Progress.Takes.readOption` says it of an argument and `Accepts.takes` of a list;
* `verbosity_of_parse`: the options of an accepted list ask to be told as much as the list does.
-/

namespace CallBridge.CommandLine

variable {g g' : Given} {awaiting : Option ValueOption} {argument value : String}
  {letters marks others : List Char} {progress : Progress}

/-! ## The letters of a list -/

/-- The letters among joined short options that ask to be told more or less. -/
def verbosityLetters : List Char → List Char
  | [] => []
  | letter :: rest =>
    if letter = 'v' ∨ letter = 'q' then letter :: verbosityLetters rest
    else if letter = 'o' then []
    else verbosityLetters rest

/-- The letters by which an argument asks to be told more or less. -/
def verbosityMarks (argument : String) : List Char :=
  if argument = "--verbose" then ['v']
  else if argument = "--quiet" then ['q']
  else
    match argument.toList with
    | '-' :: '-' :: _ => []
    | '-' :: letters => verbosityLetters letters
    | _ => []

/-- How much an argument list asks to be told: `-q` asks for the least, whatever else is asked for,
and each `-v` for more. -/
def verbosity (arguments : List String) : Nat :=
  let marks := arguments.flatMap verbosityMarks
  if 'q' ∈ marks then 0 else marks.count 'v' + 1

example : [["-q", "-vvv"], ["-o", "v"], ["-v"], ["-vv"], ["--verbose", "-vvov"]].map verbosity =
    [0, 1, 2, 3, 4] := by
  decide +kernel

/-- How much given options ask to be told. -/
def Given.verbosity (g : Given) : Nat :=
  if g.has .quiet then 0 else g.verbose + 1

/-- From some options to others, these letters have been taken and no others. -/
structure Given.Takes (g : Given) (marks : List Char) (g' : Given) : Prop where
  verbose : g'.verbose = g.verbose + marks.count 'v'
  quiet : g'.has .quiet = true ↔ g.has .quiet = true ∨ 'q' ∈ marks

/-- An argument takes these letters and no others, or ends with a request for information. -/
def Progress.Takes (g : Given) (marks : List Char) : Progress → Prop
  | .more g' _ => g.Takes marks g'
  | .finished request => ∀ given, request ≠ .generate given

/-! ## Adding one option -/

namespace Given.Takes

theorem nothing (hverbose : g'.verbose = g.verbose) (hquiet : g'.has .quiet = g.has .quiet) :
    g.Takes [] g' where
  verbose := hverbose
  quiet := by simp [hquiet]

theorem more (g : Given) : g.Takes ['v'] { g with verbose := g.verbose + 1 } where
  verbose := rfl
  quiet := by simp [Given.has]

theorem less (h : g.addFlag .quiet = .ok g') : g.Takes ['q'] g' := by
  rw [Given.addFlag] at h
  split at h
  · cases h
  · cases h
    exact ⟨rfl, by simp [Given.has]⟩

theorem addValue {option : ValueOption} (h : g.addValue option value = .ok g') : g.Takes [] g' := by
  rw [Given.addValue] at h
  split at h
  · cases h
  · split at h
    · cases h
    · cases h
      exact nothing rfl rfl

theorem addFlag {flag : Flag} (hflag : flag ≠ .quiet) (h : g.addFlag flag = .ok g') :
    g.Takes [] g' := by
  rw [Given.addFlag] at h
  split at h
  · cases h
  · cases h
    exact nothing rfl (by simp [Given.has, hflag.symm])

theorem trans {g'' : Given} (h : g.Takes marks g') (hothers : g'.Takes others g'') :
    g.Takes (marks ++ others) g'' where
  verbose := by rw [hothers.verbose, h.verbose, List.count_append, Nat.add_assoc]
  quiet := by rw [hothers.quiet, h.quiet, List.mem_append, or_assoc]

theorem andThen (h : g.Takes marks g') (hothers : progress.Takes g' others) :
    progress.Takes g (marks ++ others) := by
  cases progress with
  | more g'' awaiting => exact h.trans hothers
  | finished request => exact hothers

end Given.Takes

/-! ## Reading one argument -/

namespace Progress.Takes

theorem shortOptions (h : shortOptions g argument letters = .ok progress) :
    progress.Takes g (verbosityLetters letters) := by
  induction letters generalizing g with
  | nil =>
    cases h
    exact .nothing rfl rfl
  | cons letter rest ih =>
    obtain rfl | rfl | rfl | ⟨-, hname⟩ := letter_cases letter
    · exact (Given.Takes.more _).andThen (ih h)
    · obtain ⟨g', hadd, hrest⟩ := shortOptions_quiet h
      exact (Given.Takes.less hadd).andThen (ih hrest)
    · have hnothing : verbosityLetters ('o' :: rest) = [] := rfl
      rw [hnothing]
      rw [shortOptions_outfile] at h
      split at h
      · cases h
        exact .nothing rfl rfl
      · obtain ⟨g', hadd, rfl⟩ := exists_of_map_more h
        exact .addValue hadd
    · unfold CommandLine.shortOptions at h
      obtain hname | hname | hname := hname
      · simp [hname] at h
      · simp only [hname, Except.ok.injEq] at h
        subst h
        intro given hgenerate
        cases hgenerate
      · simp only [hname, Except.ok.injEq] at h
        subst h
        intro given hgenerate
        cases hgenerate

theorem longOption {name : String} {attached : Option String}
    (hname : attached = none → (OptionName.ofLong? name).any OptionName.isVerbosity = false)
    (h : longOption g argument name attached = .ok progress) : progress.Takes g [] := by
  unfold CommandLine.longOption at h
  cases hoption : OptionName.ofLong? name with
  | none => simp [hoption] at h
  | some option =>
    rw [hoption] at h hname
    cases attached with
    | some value =>
      cases option with
      | value option =>
        obtain ⟨g', hadd, rfl⟩ := exists_of_map_more h
        exact .addValue hadd
      | flag | verbose | version | help => cases h
    | none =>
      cases option with
      | value option =>
        cases h
        exact .nothing rfl rfl
      | flag flag =>
        have hflag : flag ≠ .quiet := by
          rintro rfl
          cases hname rfl
        obtain ⟨g', hadd, rfl⟩ := exists_of_map_more h
        exact .addFlag hflag hadd
      | verbose => cases hname rfl
      | version | help =>
        cases h
        intro given hgenerate
        cases hgenerate

/-- An option takes the letters of its argument. -/
theorem readOption (hoption : isOption argument = true)
    (h : readOption g argument = .ok progress) : progress.Takes g (verbosityMarks argument) := by
  by_cases hverbose : argument = "--verbose"
  · subst hverbose
    cases h
    exact .more g
  by_cases hquiet : argument = "--quiet"
  · subst hquiet
    change (g.addFlag .quiet).map (Progress.more · none) = .ok progress at h
    obtain ⟨g', hadd, rfl⟩ := exists_of_map_more h
    exact .less hadd
  rw [verbosityMarks, if_neg hverbose, if_neg hquiet]
  obtain ⟨name, hchars⟩ | ⟨letter, letters, hletter, hchars⟩ := option_cases hoption
  · obtain ⟨longName, attached, hname, hread⟩ := exists_readOption_long hchars hverbose hquiet
    rw [hread] at h
    rw [hchars]
    exact longOption hname h
  · rw [readOption_short hletter hchars] at h
    simpa [hchars, hletter] using shortOptions h

end Progress.Takes

/-- A value does not ask to be told anything. -/
theorem verbosityMarks_value (hvalue : isOption argument = false) :
    verbosityMarks argument = [] := by
  obtain ⟨hverbose, hquiet⟩ := ne_of_value hvalue
  rw [verbosityMarks, if_neg hverbose, if_neg hquiet]
  split
  · rfl
  · next letters hdash hchars =>
    cases letters with
    | nil => rfl
    | cons letter rest =>
      have hletter : letter ≠ '-' := by
        rintro rfl
        exact hdash rest rfl
      rw [isOption_short hletter hchars] at hvalue
      cases hvalue
  · rfl

/-! ## Reading a list -/

theorem eq_of_request {given : Given} (h : g.request = .ok (.generate given)) : given = g := by
  unfold Given.request at h
  split at h
  · cases h
  · cases h
    rfl

/-- A whole list takes the letters of all its arguments. -/
theorem Accepts.takes {arguments : List String} {given : Given}
    (h : Accepts g awaiting arguments (.generate given)) :
    g.Takes (arguments.flatMap verbosityMarks) given := by
  generalize hrequest : Request.generate given = request at h
  induction h with
  | done h =>
    subst hrequest
    rw [eq_of_request h]
    exact .nothing rfl rfl
  | mark h =>
    subst hrequest
    rw [eq_of_request h]
    exact .nothing rfl rfl
  | finished hoption hread =>
    exact absurd hrequest.symm (Progress.Takes.readOption hoption hread given)
  | option hoption hread hrest ih =>
    exact Given.Takes.trans (Progress.Takes.readOption hoption hread) (ih hrequest)
  | value hvalue hmark hadd hrest ih =>
    rw [List.flatMap_cons, verbosityMarks_value hvalue]
    exact (Given.Takes.addValue hadd).trans (ih hrequest)

/-- The options of an accepted list ask to be told as much as the list does. -/
theorem verbosity_of_parse {arguments : List String} {given : Given}
    (h : Request.parse arguments = .ok (.generate given)) :
    given.verbosity = verbosity arguments := by
  obtain ⟨hverbose, hquiet⟩ := (accepts_iff.mpr h).takes
  have hasked : given.has .quiet = true ↔ 'q' ∈ arguments.flatMap verbosityMarks := by
    rw [hquiet]
    exact or_iff_right Bool.false_ne_true
  simp only [Given.verbosity, verbosity, hasked, hverbose, Nat.zero_add]

end CallBridge.CommandLine
