import CallBridge.Proofs.Generation.Wiring
import Mathlib.Data.List.Forall2

/-!
# What the options of a run change

The options change how wrappers are written and what stands in front of them.  They change
nothing of what is decided: which functions get a wrapper, of which kind and under which name,
what is omitted where, how the dispatch table is filled and what is reported.

To say so of whole files, a file is taken apart into passages.  A `Passage` stands for one
declared function, with its wrapper or with the comment on its omission, and the passages of a
file are the same under all options.

* `wrappers_options`: the wrappers under given options;
* `Traced` says where the lines of tracing stand in a wrapper, and `traced_wrapper` that they
  stand there;
* `body_eq_passages`: the text of a file between its opening and its wiring routine;
* `options_of_run` puts it together.
-/

namespace CallBridge

open Generated
open Policy (Strategy)

/-! ## Wrappers -/

namespace Generated

variable (config : Config) (options : Options) (s : Signature) (strategy : Strategy)

/-- A wrapper that is kept local to its file has one word more. -/
theorem wrapper_isStatic :
    wrapper config { options with isStatic := true } s strategy =
      { wrapper config { options with isStatic := false } s strategy with
        text := "static " ++ (wrapper config { options with isStatic := false } s strategy).text } := by
  have hhead : headLine config { options with isStatic := true } s =
      "static " ++ headLine config { options with isStatic := false } s := by
    simp [headLine, String.append_assoc]
  have hbody : bodyLines config { options with isStatic := true } s strategy =
      bodyLines config { options with isStatic := false } s strategy := by
    cases strategy <;> rfl
  simp only [wrapper, hhead, hbody, List.cons_append, unlines, String.append_assoc]

/-- The lines that tracing adds to a wrapper. -/
def tracingLines : Strategy → List String
  | .direct => [traceLine config s, "  " ++ config.directCallCounter ++ "++;", ""]
  | .resolved => ["", traceLine config s]

/-- A wrapper and the same one with tracing.  The lines of tracing stand together: right before
the line of the call if it is direct, and else right behind the line that resolves the
function. -/
structure Traced (plain traced : Wrapper) : Prop where
  signature : traced.signature = plain.signature
  strategy : traced.strategy = plain.strategy
  name : traced.name = plain.name
  lines : ∃ before after,
    plain.text = unlines (before ++ after) ∧
    traced.text =
      unlines (before ++ tracingLines config plain.signature plain.strategy ++ after) ∧
    (plain.strategy = .direct → after.head? = some (callLine plain.signature .direct)) ∧
    (plain.strategy = .resolved → before.getLast? = some (resolveLine config plain.signature))

theorem traced_wrapper :
    Traced config (wrapper config { options with trace := false } s strategy)
      (wrapper config { options with trace := true } s strategy) where
  signature := rfl
  strategy := rfl
  name := rfl
  lines := by
    cases strategy with
    | direct =>
      exact ⟨[headLine config options s, "\x7b"], [callLine s .direct, "\x7d", ""], rfl, rfl,
        fun _ => rfl, nofun⟩
    | resolved =>
      exact ⟨[headLine config options s, "\x7b", resolveLine config s],
        ["", callLine s .resolved, "\x7d", ""], rfl, rfl, nofun, fun _ => rfl⟩

end Generated

/-! ## Passages -/

/-- What stands in a file for one declared function. -/
inductive Passage where
  /-- The wrapper of the function. -/
  | wrapped (name : String)
  /-- The comment that it has none. -/
  | omitted (name : String)
  deriving DecidableEq, Repr

namespace Passage

/-- The function that is wrapped, if it is. -/
def wrapped? : Passage → Option String
  | wrapped name => some name
  | omitted _ => none

/-- The text of a passage in a file with given wrappers. -/
def text (wrappers : Table Wrapper) : Passage → String
  | wrapped name => ((wrappers.get? name).map Wrapper.text).getD ""
  | omitted name => omissionComment name

end Passage

/-- Texts that are left out if there is nothing to write. -/
theorem join_map_getD {α β : Type} (pick : α → Option β) (write : β → String) (xs : List α) :
    String.join (xs.map fun x => ((pick x).map write).getD "") =
      String.join ((xs.filterMap pick).map write) := by
  induction xs with
  | nil => rfl
  | cons x xs ih =>
    rw [List.map_cons, String.join_cons, ih, List.filterMap_cons]
    cases pick x with
    | none => exact String.empty_append
    | some y => exact (String.join_cons).symm

namespace Generator

/-- What stands in a file for a declared name, if anything does. -/
def passage? (g : Generator) (name : String) : Option Passage :=
  if g.Retains name then some (.wrapped name)
  else if name ∈ g.config.exclusions then none
  else some (.omitted name)

/-- The passages of a file, in order. -/
def passages (g : Generator) (declarations : List Declaration) : List Passage :=
  (collect declarations).keys.filterMap g.passage?

/-- A wrapper is looked up under the name of its function. -/
theorem get?_wrappers_of_mem {g : Generator} {declarations : List Declaration} {name : String}
    {d : Declaration} (hmem : (name, d) ∈ collect declarations) (hretains : g.Retains name) :
    (g.wrappers (collect declarations)).get? name = some (g.wrapperOf d) := by
  have hindexed := indexed_collect declarations
  apply Table.get?_eq_some_of_mem (nodupKeys_wrappers_of_indexed g hindexed)
  rw [wrappers_of_indexed g hindexed]
  have hkept : (name, d) ∈ g.kept (collect declarations) :=
    List.mem_filter.mpr ⟨hmem, decide_eq_true hretains⟩
  exact List.mem_map.mpr ⟨(name, d), hkept, rfl⟩

/-- The text between the opening and the wiring routine is that of the passages. -/
theorem body_eq_passages (g : Generator) (declarations : List Declaration) :
    g.body (collect declarations) =
      String.join ((g.passages declarations).map
        (Passage.text (g.wrappers (collect declarations)))) := by
  rw [body_of_indexed g (indexed_collect declarations), passages, ← join_map_getD, Table.keys,
    List.map_map]
  congr 1
  apply List.map_congr_left
  rintro ⟨name, d⟩ hmem
  rw [entryText, Function.comp_apply, passage?]
  by_cases hretains : g.Retains name
  · rw [if_pos hretains, if_pos hretains, Option.map_some, Passage.text,
      get?_wrappers_of_mem hmem hretains]
    rfl
  · rw [if_neg hretains, if_neg hretains]
    split <;> rfl

/-- The passages with a wrapper are those of the wrappers. -/
theorem wrapped_passages (g : Generator) (declarations : List Declaration) :
    (g.passages declarations).filterMap Passage.wrapped? =
      (g.wrappers (collect declarations)).keys := by
  rw [keys_wrappers_of_indexed g (indexed_collect declarations), passages, List.filterMap_filterMap,
    ← List.filterMap_eq_filter]
  congr 1
  funext name
  rw [passage?]
  by_cases hretains : g.Retains name
  · simp [hretains, Passage.wrapped?, Option.guard]
  · rw [if_neg hretains]
    split <;> simp [hretains, Passage.wrapped?, Option.guard]

/-! ## Two runs with different options -/

/-- The same run with other options. -/
def withOptions (g : Generator) (options : Options) : Generator :=
  { g with options := options }

variable (g : Generator) (options : Options) (declarations : List Declaration)

/-- The wrappers under given options, from the retained declarations. -/
theorem wrappers_options :
    (g.withOptions options).wrappers (collect declarations) =
      (g.kept (collect declarations)).map fun entry =>
        (entry.1, wrapper g.config options entry.2.signature (g.strategyOf entry.2.feature)) :=
  wrappers_of_indexed (g.withOptions options) (indexed_collect declarations)

/-- What is reported does not depend on the options. -/
theorem diagnostics_options (source : Source) :
    ((g.withOptions options).run source).1.diagnostics = (g.run source).1.diagnostics := by
  cases hreq : g.requirement with
  | none => simp [diagnostics_run, undeclared, missing, wire, withOptions, hreq]
  | some r =>
    have hsame : (g.withOptions options).requirement = some r := hreq
    rw [diagnostics_of_required hsame, diagnostics_of_required hreq]
    rfl

/-- The wiring routine does not depend on the options. -/
theorem wiring_options :
    (g.withOptions options).wiring ((g.withOptions options).wrappers (collect declarations)) =
      g.wiring (g.wrappers (collect declarations)) := by
  cases hreq : g.requirement with
  | none => simp [wiring, wire, withOptions, hreq]
  | some r =>
    have hsame : (g.withOptions options).requirement = some r := hreq
    rw [wiring_of_required hsame, wiring_of_required hreq]
    rfl

/-- The text of a file: after the comment on where it comes from, whatever is asked for in front
of the passages, then the passages and the wiring routine. -/
theorem text_options (source : Source) :
    ((g.withOptions options).run source).1.text =
      provenanceComment source.provenance ++
        ((if options.prelude then preludeText options.preresolve else "") ++
          (if options.preresolve then
            preresolutionText (g.retainedSignatures (collect source.pending)) g.config.apiPrefix
          else "")) ++
        String.join ((g.passages source.pending).map
          (Passage.text ((g.withOptions options).wrappers (collect source.pending)))) ++
        g.wiring (g.wrappers (collect source.pending)) := by
  rw [text_run, body_eq_passages, wiring_options, opening]
  simp only [String.append_assoc]
  rfl

/-- A run is the same under all options but for how wrappers are written and for what stands in
front of them.  Wrappers have the same functions, strategies and names in the same order; the
reports are the same; the file has the same passages and the same wiring routine, so that a
comment on an omission stands between the same wrappers.  A static wrapper is the other one with
one word in front, and a wrapper with tracing is the other one with the lines of tracing put in at
one place.  The prelude and the pre-resolution block change no wrapper; they change the text
between the comment at the top and the first passage, or the wiring routine if there is no
passage. -/
theorem options_of_run (g : Generator) (source : Source) :
    let output := fun options : Options => ((g.withOptions options).run source).1
    (∀ first second : Options,
      ((output first).wrappers.map fun e => (e.1, e.2.signature, e.2.strategy, e.2.name)) =
        ((output second).wrappers.map fun e => (e.1, e.2.signature, e.2.strategy, e.2.name)) ∧
      (output first).diagnostics = (output second).diagnostics) ∧
    (∃ passages : List Passage, ∃ wiring, ∃ front : Bool → Bool → String, ∀ options : Options,
      passages.filterMap Passage.wrapped? = (output options).wrappers.keys ∧
      (g.withOptions options).wiring (output options).wrappers = wiring ∧
      (output options).text =
        provenanceComment source.provenance ++ front options.prelude options.preresolve ++
          String.join (passages.map (Passage.text (output options).wrappers)) ++ wiring) ∧
    (∀ options : Options,
      (output { options with isStatic := true }).wrappers =
        (output { options with isStatic := false }).wrappers.map fun e =>
          (e.1, { e.2 with text := "static " ++ e.2.text })) ∧
    (∀ options : Options,
      List.Forall₂ (fun plain traced => traced.1 = plain.1 ∧ Traced g.config plain.2 traced.2)
        (output { options with trace := false }).wrappers
        (output { options with trace := true }).wrappers) ∧
    ∀ (options : Options) (preresolve prelude : Bool),
      (output { options with preresolve := preresolve, prelude := prelude }).wrappers =
        (output options).wrappers := by
  intro output
  have hwrappers (options : Options) : (output options).wrappers = _ :=
    wrappers_options g options source.pending
  refine ⟨?_, ?_, ?_, ?_, ?_⟩
  · intro first second
    refine ⟨?_, ?_⟩
    · rw [hwrappers, hwrappers, List.map_map, List.map_map]
      rfl
    · exact (diagnostics_options g first source).trans (diagnostics_options g second source).symm
  · refine ⟨g.passages source.pending, g.wiring (g.wrappers (collect source.pending)),
      fun prelude preresolve => (if prelude then preludeText preresolve else "") ++
        (if preresolve then
          preresolutionText (g.retainedSignatures (collect source.pending)) g.config.apiPrefix
        else ""), ?_⟩
    intro options
    exact ⟨wrapped_passages (g.withOptions options) source.pending,
      wiring_options g options source.pending,
      text_options g options source⟩
  · intro options
    rw [hwrappers, hwrappers, List.map_map]
    apply List.map_congr_left
    intro entry _
    rw [wrapper_isStatic]
    rfl
  · intro options
    rw [hwrappers, hwrappers, List.forall₂_map_left_iff, List.forall₂_map_right_iff,
      List.forall₂_same]
    intro entry _
    exact ⟨rfl, traced_wrapper g.config options entry.2.signature _⟩
  · intro options preresolve prelude
    rw [hwrappers, hwrappers]
    apply List.map_congr_left
    intro entry _
    cases g.strategyOf entry.2.feature <;> rfl

end Generator

end CallBridge
