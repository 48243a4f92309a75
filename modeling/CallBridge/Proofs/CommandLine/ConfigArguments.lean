import CallBridge.Proofs.CommandLine.Arguments

/-!
# Argument lists with a configuration file instead of a name

The API name can be given by the option `--prefix`, and a configuration file by `--config`.  Both can
stand anywhere in an argument list, with their values attached or behind them.  `unconfigured` takes
them out of the list itself, before anything is read.

* `Given.configuredBy` are given options with a configuration file instead of these two;
* `parse_configuredBy`: a list that is accepted is accepted with a configuration file instead of both
  options as well, and the other options are read as before.
-/

namespace CallBridge.CommandLine

variable {g g' : Given} {awaiting : Option ValueOption} {argument value path name : String}
  {attached : Option String} {option : ValueOption} {letters : List Char} {progress : Progress}
  {request : Request} {change : Given → Given}

/-! ## Changing the options along joined letters -/

/-- Joined short options are read as before after a change that goes along with all of them. -/
theorem shortOptions_map
    (halong : ∀ letter option, OptionName.ofShort? letter = some option → GoesAlong change option)
    (h : shortOptions g argument letters = .ok progress) :
    shortOptions (change g) argument letters = .ok (progress.map change) := by
  induction letters generalizing g with
  | nil =>
    cases h
    rfl
  | cons letter rest ih =>
    unfold shortOptions at h ⊢
    cases hname : OptionName.ofShort? letter with
    | none => simp [hname] at h
    | some name =>
      have hletter := halong letter name hname
      simp only [hname] at h ⊢
      cases name with
      | value option =>
        simp only at h ⊢
        split at h
        · next hempty =>
          cases h
          exact if_pos hempty
        · next hvalue =>
          obtain ⟨g', hadd, rfl⟩ := exists_of_map_more h
          rw [if_neg hvalue, hletter g g' _ hadd]
          rfl
      | flag flag =>
        simp only at h ⊢
        cases hadd : g.addFlag flag with
        | error fault => simp [hadd] at h
        | ok g' =>
          simp only [hadd] at h
          simp only [hletter g g' hadd]
          exact ih h
      | verbose =>
        simp only at h ⊢
        rw [← hletter g]
        exact ih h
      | version | help =>
        cases h
        rfl

/-- Joined short options await the value of one of them. -/
theorem exists_of_shortOptions
    (h : shortOptions g argument letters = .ok (.more g' (some option))) :
    ∃ letter, OptionName.ofShort? letter = some (.value option) := by
  induction letters generalizing g with
  | nil => cases h
  | cons letter rest ih =>
    unfold shortOptions at h
    cases hname : OptionName.ofShort? letter with
    | none => simp [hname] at h
    | some name =>
      simp only [hname] at h
      cases name with
      | value other =>
        simp only at h
        split at h
        · cases h
          exact ⟨letter, hname⟩
        · obtain ⟨_, -, hnone⟩ := exists_of_map_more h
          cases hnone
      | flag flag =>
        simp only at h
        cases hadd : g.addFlag flag with
        | error fault => simp [hadd] at h
        | ok g' =>
          simp only [hadd] at h
          exact ih h
      | verbose => exact ih h
      | version | help => cases h

/-- A long option awaits its own value, unless one is attached. -/
theorem ofLong?_of_longOption
    (h : longOption g argument name attached = .ok (.more g' (some option))) :
    OptionName.ofLong? name = some (.value option) := by
  unfold longOption at h
  cases hname : OptionName.ofLong? name with
  | none => simp [hname] at h
  | some other =>
    rw [hname] at h
    cases attached with
    | some value =>
      cases other with
      | value other =>
        obtain ⟨_, -, hnone⟩ := exists_of_map_more h
        cases hnone
      | flag | verbose | version | help => cases h
    | none =>
      cases other with
      | value other =>
        cases h
        rfl
      | flag flag =>
        obtain ⟨_, -, hnone⟩ := exists_of_map_more h
        cases hnone
      | verbose | version | help => cases h

/-! ## A configuration file among the options -/

/-- Whether an option takes part in the configuration. -/
def ValueOption.configures : ValueOption → Bool
  | .apiPrefix => true
  | .config => true
  | _ => false

/-- Whether an option takes part in the configuration, by its name. -/
def OptionName.configures : OptionName → Bool
  | .value option => option.configures
  | _ => false

/-- The options with a configuration file, instead of another one and of an API name. -/
def Given.configuredBy (path : String) (g : Given) : Given :=
  { g with values := (.config, path) :: g.values.filter fun entry => !entry.1.configures }

/-- Apart from the file, the options are those that do not take part in the configuration. -/
theorem value?_configuredBy (path : String) (g : Given) (option : ValueOption) :
    (g.configuredBy path).value? option =
      if option = .config then some path
      else if option.configures then none else g.value? option := by
  by_cases hconfig : option = .config
  · subst hconfig
    rfl
  · have hfile : (ValueOption.config == option) = false := beq_false_of_ne (Ne.symm hconfig)
    rw [if_neg hconfig, Given.value?, Given.configuredBy, List.find?_cons, hfile,
      List.find?_filter]
    cases hother : option.configures with
    | true =>
      rw [List.find?_eq_none.mpr]
      · rfl
      · rintro ⟨other, value⟩ - hentry
        obtain ⟨hkept, hname⟩ := of_decide_eq_true hentry
        rw [eq_of_beq hname, hother] at hkept
        cases hkept
    | false =>
      refine congrArg (fun p => (g.values.find? p).map Prod.snd) (funext fun entry => ?_)
      by_cases hname : entry.1 = option
      · simp [hname, hother]
      · simp [hname]

theorem configuredBy_of_addValue (hoption : option.configures = true)
    (h : g.addValue option value = .ok g') : g'.configuredBy path = g.configuredBy path := by
  rw [Given.addValue] at h
  split at h
  · cases h
  · split at h
    · cases h
    · cases h
      simp [Given.configuredBy, hoption]

theorem addValue_configuredBy (hoption : option.configures = false)
    (h : g.addValue option value = .ok g') :
    (g.configuredBy path).addValue option value = .ok (g'.configuredBy path) := by
  have hconfig : option ≠ .config := by
    rintro rfl
    cases hoption
  rw [Given.addValue] at h ⊢
  rw [value?_configuredBy, if_neg hconfig, hoption]
  split at h
  · cases h
  · next hnew =>
    split at h
    · cases h
    · next hvalue =>
      cases h
      rw [if_neg hvalue]
      simp [hnew, Given.configuredBy, hoption]

/-- Naming a configuration file goes along with all options that take no part in the
configuration. -/
theorem goesAlong_configuredBy (path : String) {option : OptionName}
    (h : option.configures = false) : GoesAlong (Given.configuredBy path) option := by
  cases option with
  | value option => exact fun g g' value => addValue_configuredBy h
  | flag flag =>
    intro g g' hadd
    rw [Given.addFlag] at hadd ⊢
    split at hadd
    · cases hadd
    · next hnew =>
      cases hadd
      exact if_neg hnew
  | verbose => exact fun g => rfl
  | version | help => exact trivial

theorem request_configuredBy (path : String) (h : g.request = .ok request) :
    (g.configuredBy path).request = .ok (request.map (Given.configuredBy path)) := by
  unfold Given.request at h ⊢
  split at h
  · cases h
  · next hsource =>
    cases h
    simp only [value?_configuredBy]
    exact if_neg hsource

/-! ## Taking --prefix and --config out of arguments -/

/-- Whether an argument is `--prefix` or `--config`, with or without a value. -/
def isConfiguring (argument : String) : Bool :=
  (longParts? argument).any fun parts => parts.1 == "prefix" || parts.1 == "config"

/-- Whether the value of a long option is not attached to it. -/
def leavesValue (argument : String) : Bool :=
  (longParts? argument).any fun parts => parts.2.isNone

/-- An argument list without `--prefix` and `--config`, behind one of them that leaves its value to
the next argument or not. -/
def unconfiguredFrom : Bool → List String → List String
  | _, [] => []
  | true, _ :: rest => unconfiguredFrom false rest
  | false, argument :: rest =>
    if isConfiguring argument then unconfiguredFrom (leavesValue argument) rest
    else argument :: unconfiguredFrom false rest

/-- An argument list without `--prefix` and `--config`. -/
def unconfigured (arguments : List String) : List String :=
  unconfiguredFrom false arguments

theorem any_configures_ofLong? (name : String) :
    (OptionName.ofLong? name).any OptionName.configures = (name == "prefix" || name == "config") := by
  by_cases hapi : name = "prefix"
  · subst hapi
    rfl
  by_cases hconfig : name = "config"
  · subst hconfig
    rfl
  simp only [OptionName.ofLong?, if_neg hapi, if_neg hconfig,
    apply_ite (Option.any OptionName.configures), Option.any_some, Option.any_none,
    OptionName.configures, ValueOption.configures, ite_self]
  simp [hapi, hconfig]

/-- The argument `--prefix` or `--config` changes nothing that is left beside a configuration file,
and it awaits its value if it leaves it. -/
theorem readOption_of_isConfiguring (path : String) (hargument : isConfiguring argument = true)
    (h : readOption g argument = .ok progress) :
    ∃ g' awaiting, progress = .more g' awaiting ∧ g'.configuredBy path = g.configuredBy path ∧
      awaiting.filter (!·.configures) = none ∧
      awaiting.any ValueOption.configures = leavesValue argument := by
  cases hparts : longParts? argument with
  | none =>
    rw [isConfiguring, hparts] at hargument
    cases hargument
  | some parts =>
    obtain ⟨name, attached⟩ := parts
    rw [isConfiguring, hparts, Option.any_some, ← any_configures_ofLong?] at hargument
    rw [readOption_of_longParts? hparts] at h
    rw [leavesValue, hparts]
    unfold longOption at h
    cases hname : OptionName.ofLong? name with
    | none => simp [hname] at h
    | some option =>
      rw [hname] at h hargument
      cases option with
      | value option =>
        cases attached with
        | some value =>
          obtain ⟨g', hadd, rfl⟩ := exists_of_map_more h
          exact ⟨g', none, rfl, configuredBy_of_addValue hargument hadd, rfl, rfl⟩
        | none =>
          cases h
          have hoption : option.configures = true := hargument
          exact ⟨g, some option, rfl, rfl, by simp [hoption], hoption⟩
      | flag | verbose | version | help => cases hargument

/-- Any other option is read as before beside a configuration file, and awaits no value that takes
part in the configuration. -/
theorem readOption_configuredBy (path : String) (hargument : isConfiguring argument = false)
    (hoption : isOption argument = true) (h : readOption g argument = .ok progress) :
    readOption (g.configuredBy path) argument = .ok (progress.map (Given.configuredBy path)) ∧
      ∀ g' option, progress = .more g' (some option) → option.configures = false := by
  obtain ⟨name, hchars⟩ | ⟨letter, letters, hletter, hchars⟩ := option_cases hoption
  · obtain ⟨name, attached, hparts⟩ := exists_longParts? hchars
    rw [isConfiguring, hparts, Option.any_some, ← any_configures_ofLong?] at hargument
    have hother {option : OptionName} (hname : OptionName.ofLong? name = some option) :
        option.configures = false := by
      rwa [hname] at hargument
    rw [readOption_of_longParts? hparts] at h ⊢
    refine ⟨longOption_map (fun option hname => goesAlong_configuredBy path (hother hname))
      (fun _ option hname => goesAlong_configuredBy path (hother hname)) h, ?_⟩
    rintro g' option rfl
    exact hother (ofLong?_of_longOption h)
  · have hother {letter : Char} {option : OptionName}
        (hname : OptionName.ofShort? letter = some option) : option.configures = false := by
      unfold OptionName.ofShort? at hname
      repeat' split at hname
      all_goals
        cases hname
        try rfl
    rw [readOption_short hletter hchars] at h ⊢
    refine ⟨shortOptions_map (fun letter option hname => goesAlong_configuredBy path (hother hname))
      h, ?_⟩
    rintro g' option rfl
    obtain ⟨letter, hname⟩ := exists_of_shortOptions h
    exact hother hname

theorem isConfiguring_value (hvalue : isOption argument = false) : isConfiguring argument = false := by
  rw [isConfiguring, longParts?]
  split
  · next cs hchars =>
    cases cs with
    | nil => rfl
    | cons c cs =>
      rw [isOption, hchars] at hvalue
      cases hvalue
  · rfl

/-! ## Reading a list beside a configuration file -/

/-- An accepted list is accepted beside a configuration file as well.  A value that `--prefix` or
`--config` awaits is left out, any other one is awaited still. -/
theorem Accepts.configuredBy (path : String) {arguments : List String}
    (h : Accepts g awaiting arguments request) :
    Accepts (g.configuredBy path) (awaiting.filter (!·.configures))
      (unconfiguredFrom (awaiting.any ValueOption.configures) arguments)
      (request.map (Given.configuredBy path)) := by
  induction h with
  | done hrequest => exact .done (request_configuredBy path hrequest)
  | mark hrequest => exact .mark (request_configuredBy path hrequest)
  | @finished g argument rest request hoption hread =>
    cases hargument : isConfiguring argument with
    | true =>
      obtain ⟨_, _, hmore, -⟩ := readOption_of_isConfiguring path hargument hread
      cases hmore
    | false =>
      simp only [Option.any_none, unconfiguredFrom, hargument]
      exact .finished hoption (readOption_configuredBy path hargument hoption hread).1
  | @option g g' awaiting argument rest request hoption hread hrest ih =>
    cases hargument : isConfiguring argument with
    | true =>
      obtain ⟨_, _, hmore, hsame, hkept, hleaves⟩ :=
        readOption_of_isConfiguring path hargument hread
      cases hmore
      rw [hsame, hkept, hleaves] at ih
      simpa [unconfiguredFrom, hargument] using ih
    | false =>
      obtain ⟨hread', hawaits⟩ := readOption_configuredBy path hargument hoption hread
      simp only [Option.any_none, unconfiguredFrom, hargument]
      cases awaiting with
      | none => exact .option hoption hread' ih
      | some option =>
        have hother := hawaits g' option rfl
        rw [Option.filter_some, Option.any_some, hother] at ih
        exact .option hoption hread' ih
  | @value g g' option argument rest request hvalue hmark hadd hrest ih =>
    cases hoption : option.configures with
    | true =>
      rw [configuredBy_of_addValue hoption hadd] at ih
      rw [Option.filter_some, Option.any_some, hoption]
      exact ih
    | false =>
      rw [Option.filter_some, Option.any_some, hoption, unconfiguredFrom,
        isConfiguring_value hvalue]
      exact .value hvalue hmark (addValue_configuredBy hoption hadd) ih

theorem readOption_config (hpath : path ≠ "") :
    isOption ("--config=" ++ path) = true ∧
      readOption {} ("--config=" ++ path) = .ok (.more ⟨[(.config, path)], [], 0⟩ none) := by
  have hchars : ("--config=" ++ path).toList = "--config=".toList ++ path.toList :=
    String.toList_append
  have hparts : longParts? ("--config=" ++ path) = some ("config", some path) := by
    rw [longParts?, hchars]
    simp
  refine ⟨?_, ?_⟩
  · rw [isOption, hchars]
    rfl
  · have hname : OptionName.ofLong? "config" = some (.value .config) := rfl
    have hadd : Given.addValue {} .config path = .ok ⟨[(.config, path)], [], 0⟩ := by
      simp [Given.addValue, Given.value?, hpath]
    rw [readOption_of_longParts? hparts]
    unfold longOption
    rw [hname]
    exact congrArg (Except.map (Progress.more · none)) hadd

/-- A list that is accepted is accepted with a configuration file instead of `--prefix` and
`--config`, and asks for the same but for them. -/
theorem parse_configuredBy {arguments : List String} (hpath : path ≠ "")
    (h : Request.parse arguments = .ok request) :
    Request.parse (("--config=" ++ path) :: unconfigured arguments) =
      .ok (request.map (Given.configuredBy path)) := by
  obtain ⟨hoption, hread⟩ := readOption_config hpath
  exact accepts_iff.mp (.option hoption hread ((accepts_iff.mpr h).configuredBy path))

example : unconfigured ["--prefix", "gles", "--config=a=b", "-oprefix", "--config", "c", "--quiet"] =
    ["-oprefix", "--quiet"] := by
  decide +kernel

end CallBridge.CommandLine
