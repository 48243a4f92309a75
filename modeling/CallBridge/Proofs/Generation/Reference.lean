import CallBridge.Proofs.Generation.Alignment

/-!
# What a run yields, said of the declarations alone

A run collects declarations into a table, decides in a second table and writes
wrappers into a third.  Here its output is said without any of them: by the names in
order of first declaration, `declaredNames`, and the last declaration of each,
`lastDeclaration?`.

* `map_filter_collect`, `kept_collect`: the table of declarations, and the retained part of it, in
  these words;
* `body_collect`: the text between the opening and the wiring, in these words;
* `wrappers_and_text_of_run`: the wrappers and the whole text of a run.
-/

namespace CallBridge

open Generated

/-- The declared names, each once, in order of first declaration. -/
def declaredNames (declarations : List Declaration) : List String :=
  (declarations.map Declaration.name).eraseDups

/-- The last declaration of a name. -/
def lastDeclaration? (declarations : List Declaration) (name : String) : Option Declaration :=
  (declarations.filter fun d => d.name == name).getLast?

theorem lastDeclaration?_of_mem_collect {declarations : List Declaration} {name : String}
    {d : Declaration} (hmem : (name, d) ∈ collect declarations) :
    lastDeclaration? declarations name = some d := by
  rw [lastDeclaration?, ← get?_collect]
  exact Table.get?_eq_some_of_mem (nodupKeys_collect declarations) hmem

/-- Reading the collected declarations name by name, those of some names only, gives what the table
holds under these names. -/
theorem map_filter_collect {α : Type} (keeps : String → Bool) (declarations : List Declaration)
    (make : String → Declaration → α) :
    (((collect declarations).filter fun entry => keeps entry.1).map fun entry =>
        make entry.1 entry.2) =
      ((declaredNames declarations).filter keeps).filterMap fun name =>
        (lastDeclaration? declarations name).map (make name) := by
  have hentry : ∀ entry ∈ (collect declarations).filter fun entry => keeps entry.1,
      (lastDeclaration? declarations entry.1).map (make entry.1) =
        some (make entry.1 entry.2) := by
    intro entry hmem
    rw [lastDeclaration?_of_mem_collect (List.mem_filter.mp hmem).1]
    rfl
  rw [declaredNames, ← keys_collect, Table.keys, List.filter_map, List.filterMap_map]
  simp only [Function.comp_def]
  rw [List.filterMap_congr hentry, List.filterMap_eq_map']

namespace Generator

/-- The retained names, in order of first declaration. -/
def retainedNames (g : Generator) (declarations : List Declaration) : List String :=
  (declaredNames declarations).filter fun name => g.Retains name

/-- The wrappers that a run has to yield: for each retained name that of its last
declaration. -/
def referenceWrappers (g : Generator) (declarations : List Declaration) : Table Wrapper :=
  (g.retainedNames declarations).filterMap fun name =>
    (lastDeclaration? declarations name).map fun d => (name, g.wrapperOf d)

/-- What has to stand in the place of a declared name. -/
def referenceEntry (g : Generator) (declarations : List Declaration) (name : String) : String :=
  if g.Retains name then ((lastDeclaration? declarations name).map g.wrapperOf).elim "" Wrapper.text
  else if name ∈ g.config.exclusions then ""
  else omissionComment name

/-- The text that a run has to yield. -/
def referenceText (g : Generator) (provenance : String) (declarations : List Declaration) :
    String :=
  provenanceComment provenance ++
    (if g.options.prelude then preludeText g.options.preresolve else "") ++
    (if g.options.preresolve then
      preresolutionText
        ((g.retainedNames declarations).filterMap fun name =>
          (lastDeclaration? declarations name).map Declaration.signature)
        g.config.apiPrefix
    else "") ++
    String.join ((declaredNames declarations).map (g.referenceEntry declarations)) ++
    (match g.requirement with
    | none => ""
    | some r =>
      wiringText r (g.referenceWrappers declarations)
        (fun name => decide (name ∈ g.config.exclusions)) g.config)

/-! ## The retained declarations -/

theorem keys_kept_collect (g : Generator) (declarations : List Declaration) :
    (g.kept (collect declarations)).keys = g.retainedNames declarations := by
  rw [retainedNames, declaredNames, ← keys_collect, kept, Table.keys, Table.keys,
    List.filter_map]
  rfl

theorem kept_collect {α : Type} (g : Generator) (declarations : List Declaration)
    (make : String → Declaration → α) :
    ((g.kept (collect declarations)).map fun entry => make entry.1 entry.2) =
      (g.retainedNames declarations).filterMap fun name =>
        (lastDeclaration? declarations name).map (make name) :=
  map_filter_collect (fun name => g.Retains name) declarations make

theorem wrappers_collect (g : Generator) (declarations : List Declaration) :
    g.wrappers (collect declarations) = g.referenceWrappers declarations := by
  rw [wrappers_of_indexed g (indexed_collect declarations), referenceWrappers]
  exact kept_collect g declarations fun name d => (name, g.wrapperOf d)

theorem retainedSignatures_collect (g : Generator) (declarations : List Declaration) :
    g.retainedSignatures (collect declarations) =
      (g.retainedNames declarations).filterMap fun name =>
        (lastDeclaration? declarations name).map Declaration.signature := by
  rw [retainedSignatures_of_indexed g (indexed_collect declarations)]
  exact kept_collect g declarations fun _ d => d.signature

theorem body_collect (g : Generator) (declarations : List Declaration) :
    g.body (collect declarations) =
      String.join ((declaredNames declarations).map (g.referenceEntry declarations)) := by
  rw [body_of_indexed g (indexed_collect declarations), declaredNames, ← keys_collect, Table.keys,
    List.map_map]
  congr 1
  apply List.map_congr_left
  rintro ⟨name, d⟩ hmem
  simp [entryText, referenceEntry, lastDeclaration?_of_mem_collect hmem]

/-! ## The output -/

/-- What a run yields, whatever is declared how often and in which order.  The wrappers
stand under the retained names, each once, in order of first declaration, and the
wrapper of a name is that of its last declaration.  The text has the parts in their
order: for each declared name its wrapper if it is retained, a comment if only the
dispatch table leaves it out, and nothing if it is excluded. -/
theorem wrappers_and_text_of_run (g : Generator) (source : Source) :
    let output := (g.run source).1
    output.wrappers.keys = g.retainedNames source.pending ∧
      output.wrappers.keys.Nodup ∧
      (∀ name ∈ g.retainedNames source.pending,
        ∃ d, lastDeclaration? source.pending name = some d ∧
          output.wrappers.get? name = some (g.wrapperOf d)) ∧
      output.text = g.referenceText source.provenance source.pending := by
  have hindexed := indexed_collect source.pending
  have hkeys : (g.wrappers (collect source.pending)).keys = g.retainedNames source.pending := by
    rw [keys_wrappers_of_indexed g hindexed, keys_collect, retainedNames, declaredNames]
  have hnodup := nodupKeys_wrappers_of_indexed g hindexed
  refine ⟨hkeys, hnodup, ?_, ?_⟩
  · intro name hname
    rw [← keys_kept_collect] at hname
    obtain ⟨⟨name, d⟩, hmem, rfl⟩ := List.mem_map.mp hname
    have hdeclared := (List.mem_filter.mp hmem).1
    refine ⟨d, lastDeclaration?_of_mem_collect hdeclared, ?_⟩
    apply Table.get?_eq_some_of_mem hnodup
    rw [wrappers_of_indexed g hindexed]
    exact List.mem_map.mpr ⟨(name, d), hmem, rfl⟩
  · have hexcluded : g.rules.isExcluded = fun name => decide (name ∈ g.config.exclusions) :=
      funext (isExcluded_rules g)
    show (g.run source).1.text = _
    rw [text_run, opening, retainedSignatures_collect, body_collect, wrappers_collect, wiring_eq,
      hexcluded]
    rfl

end Generator

end CallBridge
