import CallBridge.Generation
import CallBridge.Proofs.Tables
import Mathlib.Data.List.Nodup

/-!
# The three tables of a run

A run keeps the declarations, the decisions about them and the wrappers in tables of
their own.  The decisions are taken for the collected declarations and then looked up
by name, so the wrappers are right only if both tables agree on which name stands
where.  This module shows that they do.

* `Indexed` is what the table of declarations keeps: distinct names, and each
  declaration under its own name.  `indexed_collect` gives it for every source.
* `Policy.Rules.classify_eq_map_collect`: after each declaration, both tables stand side by side.
* `decisions_of_indexed`: the decisions stand under the same names in the same order.
* `writeEntry_of_mem` says what is written and recorded for one declaration, without going
  through the decisions; `wrappers_of_indexed`, `body_of_indexed` and `records_writeEntries` say
  it for the whole table.
* `wrappers_run`, `text_run` and `diagnostics_run`: what a run yields of these parts.

`Retains` states the decision itself: a name that is not excluded and, if there is a
dispatch table, has a slot in it.
-/

namespace CallBridge

open Generated
open Policy (Decision Omission Strategy)

/-! ## The collected declarations -/

/-- A table of declarations in which each name occurs once and holds a declaration of
this name. -/
structure Indexed (declared : Table Declaration) : Prop where
  nodupKeys : declared.NodupKeys
  name_eq : ∀ entry ∈ declared, entry.2.name = entry.1

theorem value_register (table : Table Declaration) (d : Declaration) :
    (register table d).value = table.put d.name d := by
  rw [register]
  split <;> rfl

theorem collect_eq_ofList (declarations : List Declaration) :
    collect declarations = Table.ofList (declarations.map fun d => (d.name, d)) := by
  rw [collect, gather, Log.Recorded.value_foldlM, Table.ofList, List.foldl_map]
  simp only [value_register]

/-- What is looked up in the table of declarations is the last declaration of the
name. -/
theorem get?_collect (name : String) (declarations : List Declaration) :
    (collect declarations).get? name =
      (declarations.filter fun d => d.name == name).getLast? := by
  rw [collect_eq_ofList, Table.get?_ofList, List.filter_map, List.getLast?_map, Option.map_map]
  simp [Function.comp_def]

theorem keys_collect (declarations : List Declaration) :
    (collect declarations).keys = (declarations.map Declaration.name).eraseDups := by
  rw [collect_eq_ofList, Table.keys_ofList, List.map_map]
  rfl

theorem nodupKeys_collect (declarations : List Declaration) :
    (collect declarations).NodupKeys := by
  rw [collect_eq_ofList]
  exact Table.nodupKeys_ofList _

theorem indexed_collect (declarations : List Declaration) : Indexed (collect declarations) where
  nodupKeys := nodupKeys_collect declarations
  name_eq := by
    rintro ⟨name, d⟩ hmem
    have hlast := Table.get?_eq_some_of_mem (nodupKeys_collect declarations) hmem
    rw [get?_collect] at hlast
    have hnamed := List.mem_of_getLast? hlast
    simpa using (List.mem_filter.mp hnamed).2

/-- Collecting what has been collected changes nothing. -/
theorem collect_values_of_indexed {declared : Table Declaration} (hdeclared : Indexed declared) :
    collect (declared.map Prod.snd) = declared := by
  have hpairs : (declared.map Prod.snd).map (fun d => (d.name, d)) = declared := by
    rw [List.map_map]
    refine (List.map_congr_left fun entry hmem => ?_).trans (List.map_id declared)
    simp [hdeclared.name_eq entry hmem]
  rw [collect_eq_ofList, hpairs, Table.ofList_eq_self_of_nodupKeys hdeclared.nodupKeys]

theorem collect_concat (declarations : List Declaration) (d : Declaration) :
    collect (declarations ++ [d]) = (collect declarations).put d.name d := by
  rw [collect_eq_ofList, collect_eq_ofList, Table.ofList, List.map_append, List.foldl_append]
  rfl

theorem Policy.Rules.classify_concat (rules : Policy.Rules) (declarations : List Declaration)
    (d : Declaration) :
    rules.classify (declarations ++ [d]) =
      (rules.classify declarations).put d.name (rules.decide d.name d.feature) := by
  simp [classify]

/-- After any number of declarations, the table of decisions is the table of declarations with each
declaration replaced by the decision about it. -/
theorem Policy.Rules.classify_eq_map_collect (rules : Policy.Rules)
    (declarations : List Declaration) :
    rules.classify declarations =
      (collect declarations).map fun entry =>
        (entry.1, rules.decide entry.1 entry.2.feature) := by
  induction declarations using List.reverseRecOn with
  | nil => rfl
  | append_singleton declarations d ih =>
    rw [classify_concat, collect_concat, ih]
    exact (Table.mapValues_put (fun name (d : Declaration) => rules.decide name d.feature)
      d.name d _).symm

namespace Generator

/-! ## Decisions -/

/-- A function gets a wrapper: it is not excluded and, if a dispatch table is to be
filled, it has a slot there. -/
def Retains (g : Generator) (name : String) : Prop :=
  name ∉ g.config.exclusions ∧ ∀ r, g.requirement = some r → name ∈ r.names

/-- How the functions of a feature are called: directly if it belongs to the baseline. -/
def strategyOf (g : Generator) (feature : String) : Strategy :=
  if feature ∈ g.config.baselineFeatures then .direct else .resolved

/-- The wrapper of a declaration. -/
def wrapperOf (g : Generator) (d : Declaration) : Wrapper :=
  wrapper g.config g.options d.signature (g.strategyOf d.feature)

theorem isExcluded_rules (g : Generator) (name : String) :
    g.rules.isExcluded name = decide (name ∈ g.config.exclusions) := by
  simp [rules, Config.rules, Policy.Rules.isExcluded]

theorem strategy_rules (g : Generator) (feature : String) :
    g.rules.strategy feature = g.strategyOf feature := by
  simp [rules, Config.rules, Policy.Rules.strategy, Policy.Rules.isBaseline, strategyOf]

theorem isIncluded_rules (g : Generator) (name : String) :
    g.rules.isIncluded name = true ↔ ∀ r, g.requirement = some r → name ∈ r.names := by
  cases hreq : g.requirement <;> simp [rules, Config.rules, Policy.Rules.isIncluded, hreq]

/-- No reason for an omission is given exactly for the retained names. -/
theorem omission_eq_none_iff (g : Generator) (name : String) :
    g.rules.omission name = none ↔ g.Retains name := by
  rw [Retains, ← isIncluded_rules, Policy.Rules.omission, isExcluded_rules]
  by_cases hex : name ∈ g.config.exclusions
  · simp [hex]
  · cases g.rules.isIncluded name <;> simp [hex]

theorem omission_eq_excluded_iff (g : Generator) (name : String) :
    g.rules.omission name = some .excluded ↔ name ∈ g.config.exclusions := by
  rw [Policy.Rules.omission, isExcluded_rules]
  by_cases hex : name ∈ g.config.exclusions
  · simp [hex]
  · cases g.rules.isIncluded name <;> simp [hex]

instance (g : Generator) (name : String) : Decidable (g.Retains name) :=
  decidable_of_iff _ (omission_eq_none_iff g name)

theorem isRetained_decide (g : Generator) (name feature : String) :
    (g.rules.decide name feature).isRetained = decide (g.Retains name) := by
  rw [Bool.eq_iff_iff, decide_eq_true_iff, ← omission_eq_none_iff]
  exact Option.isNone_iff_eq_none

/-! ## The decisions stand where the declarations stand -/

/-- The decisions have the names of the declarations, in the same order, and each is
the decision about the declaration in its place. -/
theorem decisions_of_indexed (g : Generator) {declared : Table Declaration}
    (hdeclared : Indexed declared) :
    g.decisions declared =
      declared.map fun entry => (entry.1, g.rules.decide entry.1 entry.2.feature) := by
  rw [decisions, Policy.Rules.classify_eq_map_collect, collect_values_of_indexed hdeclared]

/-- The decision about a declared function is found under its name. -/
theorem get?_decisions_of_mem (g : Generator) {declared : Table Declaration}
    (hdeclared : Indexed declared) {name : String} {d : Declaration}
    (hmem : (name, d) ∈ declared) :
    (g.decisions declared).get? name = some (g.rules.decide name d.feature) := by
  rw [decisions_of_indexed g hdeclared,
    Table.get?_mapValues fun name (d : Declaration) => g.rules.decide name d.feature,
    Table.get?_eq_some_of_mem hdeclared.nodupKeys hmem]
  rfl

/-! ## What a run makes of the declarations -/

/-- The entries of the retained names. -/
def kept (g : Generator) (declared : Table Declaration) : Table Declaration :=
  declared.filter fun entry => g.Retains entry.1

/-- What stands in the file for one declaration: its wrapper if it is retained,
nothing if it is excluded, and a comment if only the dispatch table leaves it out. -/
def entryText (g : Generator) (name : String) (d : Declaration) : String :=
  if g.Retains name then (g.wrapperOf d).text
  else if name ∈ g.config.exclusions then "" else omissionComment name

/-- What is recorded of one declaration while the file is written. -/
def entryRecords (g : Generator) (name : String) (d : Declaration) : List Log.Record :=
  if g.Retains name then
    (emitWrapper g.config g.options d.signature (g.strategyOf d.feature)).records
  else []

/-- The wrappers once the one of a further declaration has been entered, if it gets one. -/
def enterWrapper (g : Generator) (wrappers : Table Wrapper) (entry : String × Declaration) :
    Table Wrapper :=
  if g.Retains entry.1 then wrappers.put entry.1 (g.wrapperOf entry.2) else wrappers

/-- One declaration is written as the decision about its name asks for. -/
theorem writeEntry_of_mem (g : Generator) {declared : Table Declaration}
    (hdeclared : Indexed declared) {entry : String × Declaration} (hmem : entry ∈ declared)
    (draft : Draft) :
    g.writeEntry (g.decisions declared) draft entry =
      ⟨⟨draft.code.append (g.entryText entry.1 entry.2), g.enterWrapper draft.wrappers entry⟩,
        g.entryRecords entry.1 entry.2⟩ := by
  obtain ⟨name, d⟩ := entry
  rw [entryText, entryRecords, enterWrapper]
  simp only [writeEntry, get?_decisions_of_mem g hdeclared hmem, Policy.Rules.decide,
    strategy_rules]
  cases homit : g.rules.omission name with
  | none =>
    have hretain := (omission_eq_none_iff g name).mp homit
    rw [if_pos hretain, if_pos hretain, if_pos hretain]
    rfl
  | some why =>
    have hretain : ¬ g.Retains name := by
      rw [← omission_eq_none_iff, homit]
      simp
    rw [if_neg hretain, if_neg hretain, if_neg hretain]
    cases why with
    | excluded =>
      rw [if_pos ((omission_eq_excluded_iff g name).mp homit), Code.append_empty]
      rfl
    | unlisted =>
      have hex : name ∉ g.config.exclusions := by
        rw [← omission_eq_excluded_iff, homit]
        simp
      rw [if_neg hex]
      rfl

/-- Declarations of the table are written one after the other. -/
theorem foldlM_writeEntry (g : Generator) {declared : Table Declaration}
    (hdeclared : Indexed declared) {entries : Table Declaration}
    (hentries : ∀ entry ∈ entries, entry ∈ declared) (draft : Draft) :
    entries.foldlM (g.writeEntry (g.decisions declared)) draft =
      ⟨⟨draft.code.append (String.join (entries.map fun entry => g.entryText entry.1 entry.2)),
          entries.foldl g.enterWrapper draft.wrappers⟩,
        entries.flatMap fun entry => g.entryRecords entry.1 entry.2⟩ := by
  induction entries generalizing draft with
  | nil =>
    rw [List.map_nil, String.join_nil, Code.append_empty]
    rfl
  | cons entry rest ih =>
    obtain ⟨hentry, hrest⟩ := List.forall_mem_cons.mp hentries
    rw [List.foldlM_cons, writeEntry_of_mem g hdeclared hentry, Log.Recorded.mk_bind, ih hrest,
      List.map_cons, String.join_cons, Code.append_append]
    rfl

/-- The file has the texts of the declarations, in order. -/
theorem body_of_indexed (g : Generator) {declared : Table Declaration}
    (hdeclared : Indexed declared) :
    g.body declared =
      String.join (declared.map fun entry => g.entryText entry.1 entry.2) := by
  rw [body, writeEntries, foldlM_writeEntry g hdeclared fun _ hmem => hmem]
  exact String.empty_append

theorem records_writeEntries (g : Generator) {declared : Table Declaration}
    (hdeclared : Indexed declared) :
    (g.writeEntries declared).records =
      declared.flatMap fun entry => g.entryRecords entry.1 entry.2 := by
  rw [writeEntries, foldlM_writeEntry g hdeclared fun _ hmem => hmem]

/-- The wrappers are those of the retained declarations, in order. -/
theorem wrappers_of_indexed (g : Generator) {declared : Table Declaration}
    (hdeclared : Indexed declared) :
    g.wrappers declared = (g.kept declared).map fun entry => (entry.1, g.wrapperOf entry.2) := by
  have hentered : declared.foldl g.enterWrapper [] =
      Table.ofList ((g.kept declared).map fun entry => (entry.1, g.wrapperOf entry.2)) := by
    rw [Table.ofList, List.foldl_map, kept, List.foldl_filter]
    simp only [decide_eq_true_eq]
    rfl
  have hnodup :
      Table.NodupKeys ((g.kept declared).map fun entry => (entry.1, g.wrapperOf entry.2)) := by
    rw [Table.NodupKeys, Table.keys, List.map_map]
    exact hdeclared.nodupKeys.sublist (List.filter_sublist.map Prod.fst)
  rw [wrappers, writeEntries, foldlM_writeEntry g hdeclared fun _ hmem => hmem, hentered,
    Table.ofList_eq_self_of_nodupKeys hnodup]

/-- The wrappers stand under the retained names, in the order of the declarations. -/
theorem keys_wrappers_of_indexed (g : Generator) {declared : Table Declaration}
    (hdeclared : Indexed declared) :
    (g.wrappers declared).keys = declared.keys.filter fun name => g.Retains name := by
  rw [wrappers_of_indexed g hdeclared, kept, Table.keys, Table.keys, List.filter_map,
    List.map_map]
  rfl

theorem nodupKeys_wrappers_of_indexed (g : Generator) {declared : Table Declaration}
    (hdeclared : Indexed declared) : (g.wrappers declared).NodupKeys := by
  rw [Table.NodupKeys, keys_wrappers_of_indexed g hdeclared]
  exact hdeclared.nodupKeys.filter _

/-- The block of pre-resolved functions is that of the retained declarations, in order. -/
theorem retainedSignatures_of_indexed (g : Generator) {declared : Table Declaration}
    (hdeclared : Indexed declared) :
    g.retainedSignatures declared = (g.kept declared).map fun entry => entry.2.signature := by
  have hnames : Policy.retained (g.decisions declared) =
      (g.kept declared).map fun entry => (entry.1, g.rules.strategy entry.2.feature) := by
    rw [decisions_of_indexed g hdeclared, Policy.retained, List.filter_map, List.map_map]
    simp only [Function.comp_def, isRetained_decide]
    rfl
  have hentry : ∀ entry ∈ g.kept declared,
      ((declared.get? entry.1).map Declaration.signature) = some entry.2.signature := by
    intro entry hmem
    have hin : (entry.1, entry.2) ∈ declared := (List.mem_filter.mp hmem).1
    rw [Table.get?_eq_some_of_mem hdeclared.nodupKeys hin]
    rfl
  rw [retainedSignatures, hnames, List.filterMap_map]
  simp only [Function.comp_def]
  rw [List.filterMap_congr hentry, List.filterMap_eq_map']

/-! ## The parts of the output -/

theorem wrappers_run (g : Generator) (source : Source) :
    (g.run source).1.wrappers = g.wrappers (collect source.pending) :=
  rfl

theorem wiring_eq (g : Generator) (wrappers : Table Wrapper) :
    g.wiring wrappers =
      match g.requirement with
      | none => ""
      | some r => wiringText r wrappers g.rules.isExcluded g.config := by
  rw [wiring, wire]
  cases g.requirement <;> rfl

/-- The file has its opening, what stands for the declarations, and the wiring routine. -/
theorem text_run (g : Generator) (source : Source) :
    (g.run source).1.text =
      g.opening source.provenance (collect source.pending) ++ g.body (collect source.pending) ++
        g.wiring (g.wrappers (collect source.pending)) :=
  rfl

/-- The diagnostics are on functions that are not declared, and then on slots left unset. -/
theorem diagnostics_run (g : Generator) (source : Source) :
    (g.run source).1.diagnostics =
      (g.undeclared (collect source.pending)).map Diagnostic.undeclared ++
        (g.missing (g.wrappers (collect source.pending))).map Diagnostic.missingSlot := by
  show (g.noteUndeclared source.provenance (collect source.pending)).value ++ _ = _
  rw [noteUndeclared, Log.Recorded.mapM_log]
  rfl

end Generator

end CallBridge
