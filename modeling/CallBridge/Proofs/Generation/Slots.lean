import CallBridge.Proofs.Generation.Wiring

/-!
# Slots are declared before wrappers use them

The pre-resolution block is written from the decisions joined with the declarations, and the
wrappers from the declarations one by one.  Generated code compiles only if both name the same
slots.

* `Target` is what generated code resolves for a function, with the lines that refer to it;
* `retainedSignatures_eq_signatures`: the block has the functions of the wrappers, in their
  order;
* `resolves_of_mem_wrappers`: a wrapper that resolves its function refers to one target, in the
  line that resolves and in the line that calls;
* `targets_of_run` puts it together for a whole file.
-/

namespace CallBridge

open Generated

namespace Generated

/-! ## Targets -/

/-- What generated code resolves for a function: the type of the pointer, after which the slot
is named, and the literal of the symbol that is looked up. -/
structure Target where
  procType : String
  symbol : String
  deriving DecidableEq, Repr

namespace Target

/-- The target of a function. -/
def ofSignature (s : Signature) : Target where
  procType := s.procType
  symbol := literal s.name

/-- The line that declares the slot. -/
def declareLine (t : Target) : String :=
  "RESOLVE_DECL(" ++ t.procType ++ ");"

/-- The line that resolves the target beforehand. -/
def preresolveLine (t : Target) : String :=
  "  PRERESOLVE(" ++ t.procType ++ ", " ++ t.symbol ++ ");"

/-- The line that resolves the target inside a wrapper, with what the wrapper returns if that
fails, if it returns anything. -/
def resolveLine (t : Target) : Option String → String
  | none => "  RESOLVE(" ++ t.procType ++ ", " ++ t.symbol ++ ");"
  | some sentinel =>
    "  RESOLVE_RET(" ++ t.procType ++ ", " ++ t.symbol ++ ", " ++ sentinel ++ ");"

/-- The line that calls the resolved function. -/
def callLine (t : Target) (returnWord arguments : String) : String :=
  "  " ++ returnWord ++ "RESOLVED_PROC(" ++ t.procType ++ ")(" ++ arguments ++ ");"

/-- The block that declares the slots of targets and resolves all of them. -/
def blockLines (apiPrefix : String) (targets : List Target) : List String :=
  targets.map declareLine ++
    ["", "int " ++ resolveRoutine apiPrefix ++ "(void)", "\x7b", "  int unresolved = 0;", ""] ++
    targets.map preresolveLine ++
    ["", "  return unresolved;", "\x7d", ""]

/-- The block declares the slot of each of its targets. -/
theorem exists_blockLines_eq (apiPrefix : String) {targets : List Target} {t : Target}
    (hmem : t ∈ targets) :
    ∃ earlier later,
      unlines (blockLines apiPrefix targets) = earlier ++ (t.declareLine ++ "\n") ++ later := by
  have hline : t.declareLine ∈ targets.map declareLine := List.mem_map_of_mem hmem
  obtain ⟨earlier, later, hsplit⟩ := List.append_of_mem hline
  have hblock : ∃ more, blockLines apiPrefix targets = earlier ++ t.declareLine :: more := by
    simp only [blockLines, hsplit, List.append_assoc, List.cons_append]
    exact ⟨_, rfl⟩
  obtain ⟨more, hmore⟩ := hblock
  refine ⟨unlines earlier, unlines more, ?_⟩
  rw [hmore, unlines_append, unlines]
  simp only [String.append_assoc]

end Target

/-- The wrapper resolves one target in its first line and calls it in its last one.  Nothing
but the line of tracing stands between them. -/
def Wrapper.Resolves (w : Wrapper) (config : Config) (t : Target) : Prop :=
  ∃ head between, (between = [] ∨ between = ["", traceLine config w.signature]) ∧
    w.text = unlines
      ([head, "\x7b",
          t.resolveLine (if w.signature.returnsVoid then none else some config.failureSentinel)] ++
        between ++
        ["", t.callLine (returnWord w.signature) (passedArguments w.signature.params),
          "\x7d", ""])

/-- The block for signatures is that of their targets. -/
theorem preresolutionText_eq_blockLines (signatures : List Signature) (apiPrefix : String) :
    preresolutionText signatures apiPrefix =
      unlines (Target.blockLines apiPrefix (signatures.map Target.ofSignature)) := by
  have hdeclare : signatures.map slotLine =
      (signatures.map Target.ofSignature).map Target.declareLine := by
    rw [List.map_map]
    rfl
  have hresolve : signatures.map preresolveLine =
      (signatures.map Target.ofSignature).map Target.preresolveLine := by
    rw [List.map_map]
    rfl
  rw [preresolutionText, Target.blockLines, hdeclare, hresolve]

/-- A wrapper of a function that is called through a pointer resolves the target of this
function, with or without tracing. -/
theorem resolves_wrapper (config : Config) (options : Options) (s : Signature) :
    (wrapper config options s .resolved).Resolves config (.ofSignature s) := by
  refine ⟨headLine config options s,
    if options.trace then ["", traceLine config s] else [], ?_, ?_⟩
  · cases options.trace with
    | true => exact Or.inr rfl
    | false => exact Or.inl rfl
  · have hresolve : resolveLine config s = (Target.ofSignature s).resolveLine
        (if s.returnsVoid then none else some config.failureSentinel) := by
      rw [resolveLine]
      cases s.returnsVoid <;> rfl
    show unlines _ = _
    rw [bodyLines, hresolve]
    simp only [List.append_assoc]
    rfl

end Generated

namespace Generator

/-! ## The block and the wrappers -/

/-- The functions that wrappers are for, in order. -/
def targets (wrappers : Table Wrapper) : List Target :=
  wrappers.map fun entry => .ofSignature entry.2.signature

/-- The block has the functions of the wrappers, in their order. -/
theorem retainedSignatures_eq_signatures (g : Generator) (declarations : List Declaration) :
    g.retainedSignatures (collect declarations) =
      (g.wrappers (collect declarations)).map fun entry => entry.2.signature := by
  have hindexed := indexed_collect declarations
  rw [retainedSignatures_of_indexed g hindexed, wrappers_of_indexed g hindexed, List.map_map]
  rfl

/-- The opening of a file with pre-resolution ends with the block of the targets of its
wrappers. -/
theorem opening_of_preresolve {g : Generator} (hpreresolve : g.options.preresolve = true)
    (provenance : String) (declarations : List Declaration) :
    g.opening provenance (collect declarations) =
      provenanceComment provenance ++ (if g.options.prelude then preludeText true else "") ++
        unlines (Target.blockLines g.config.apiPrefix
          (targets (g.wrappers (collect declarations)))) := by
  rw [opening, hpreresolve, if_pos rfl, preresolutionText_eq_blockLines,
    retainedSignatures_eq_signatures, List.map_map]
  rfl

/-- A wrapper that resolves its function resolves the target of this function. -/
theorem resolves_of_mem_wrappers {g : Generator} {source : Source} {entry : String × Wrapper}
    (hmem : entry ∈ (g.run source).1.wrappers) (hstrategy : entry.2.strategy = .resolved) :
    entry.2.Resolves g.config (.ofSignature entry.2.signature) := by
  rw [wrappers_run, wrappers_of_indexed g (indexed_collect source.pending)] at hmem
  obtain ⟨⟨name, d⟩, -, rfl⟩ := List.mem_map.mp hmem
  have hresolved : g.strategyOf d.feature = .resolved := hstrategy
  show (wrapper g.config g.options d.signature (g.strategyOf d.feature)).Resolves _ _
  rw [hresolved]
  exact resolves_wrapper g.config g.options d.signature

/-- The block of the targets stands in front of all wrappers. -/
theorem text_of_preresolve {g : Generator} (hpreresolve : g.options.preresolve = true)
    (source : Source) :
    ∃ behind,
      (g.run source).1.text = provenanceComment source.provenance ++
        (if g.options.prelude then preludeText true else "") ++
        unlines (Target.blockLines g.config.apiPrefix (targets (g.run source).1.wrappers)) ++
        behind ∧
      ∀ entry ∈ (g.run source).1.wrappers,
        ∃ front back, behind = front ++ entry.2.text ++ back := by
  refine ⟨g.body (collect source.pending) ++ g.wiring (g.wrappers (collect source.pending)),
    ?_, ?_⟩
  · rw [wrappers_run, ← opening_of_preresolve hpreresolve, ← String.append_assoc, text_run]
  · intro entry hmem
    obtain ⟨front, back, hbody⟩ := exists_append_of_mem_wrappers hmem
    refine ⟨front, back ++ g.wiring (g.wrappers (collect source.pending)), ?_⟩
    simp only [hbody, String.append_assoc]

/-- The slot of every wrapper is declared before the wrapper. -/
theorem exists_declareLine_before {g : Generator} (hpreresolve : g.options.preresolve = true)
    {source : Source} {entry : String × Wrapper} (hmem : entry ∈ (g.run source).1.wrappers) :
    ∃ before between after,
      (g.run source).1.text = before ++
        ((Target.ofSignature entry.2.signature).declareLine ++ "\n") ++ between ++
        entry.2.text ++ after := by
  obtain ⟨behind, htext, hbehind⟩ := text_of_preresolve hpreresolve source
  obtain ⟨front, back, hfront⟩ := hbehind entry hmem
  have htarget : Target.ofSignature entry.2.signature ∈ targets (g.run source).1.wrappers :=
    List.mem_map_of_mem hmem
  obtain ⟨earlier, later, hblock⟩ := Target.exists_blockLines_eq g.config.apiPrefix htarget
  refine ⟨provenanceComment source.provenance ++
    (if g.options.prelude then preludeText true else "") ++ earlier, later ++ front, back, ?_⟩
  rw [htext, hblock, hfront]
  simp only [String.append_assoc]

/-! ## The output -/

/-- A file with pre-resolution declares and resolves the targets of its wrappers: one line of
each kind for each wrapper, in the order of the wrappers, and no further ones.  The block stands
in front of all wrappers, and a wrapper that resolves its function refers to its own target and
to no other, so the slot it uses is declared before it. -/
theorem targets_of_run (config : Config) (options : Options)
    (requirement : Option Dispatch.Requirement) (source : Source) :
    let g := Generator.mk config { options with preresolve := true } requirement
    let output := (g.run source).1
    (∃ behind,
      output.text = provenanceComment source.provenance ++
        (if options.prelude then preludeText true else "") ++
        unlines (Target.blockLines config.apiPrefix (targets output.wrappers)) ++ behind ∧
      ∀ entry ∈ output.wrappers, ∃ front back, behind = front ++ entry.2.text ++ back) ∧
    (∀ entry ∈ output.wrappers, entry.2.strategy = .resolved →
      entry.2.Resolves config (.ofSignature entry.2.signature)) ∧
    ∀ entry ∈ output.wrappers, ∃ before between after,
      output.text = before ++ ((Target.ofSignature entry.2.signature).declareLine ++ "\n") ++
        between ++ entry.2.text ++ after := by
  intro g output
  have hpreresolve : g.options.preresolve = true := rfl
  have htext := text_of_preresolve hpreresolve source
  have hresolves (entry : String × Wrapper) (hmem : entry ∈ output.wrappers)
      (hstrategy : entry.2.strategy = .resolved) :=
    resolves_of_mem_wrappers (g := g) hmem hstrategy
  have hdeclared (entry : String × Wrapper) (hmem : entry ∈ output.wrappers) :=
    exists_declareLine_before hpreresolve hmem
  exact ⟨htext, hresolves, hdeclared⟩

end Generator

end CallBridge
