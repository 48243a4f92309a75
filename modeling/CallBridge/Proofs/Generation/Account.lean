import CallBridge.Proofs.Generation.Reference
import CallBridge.Proofs.Generation.Wiring
import Mathlib.Data.List.Induction

/-!
# The log accounts for a run

A run logs what it does while it does it, and reports diagnostics at its end.  The records of the
log are made at other places than the output: one for a name declared anew while declarations are
collected, one for a wrapper while it is written, and a warning wherever a diagnostic is noted.

* `repeats` are the declarations of names declared before, said of the declarations alone.
  `records_gather` finds them in the course of collecting, and `length_repeats` counts them.
* `Diagnostic.record`, `Wrapper.record` are the records that belong to a diagnostic and to a wrapper.
* `records_of_run` reads the whole log off the output: nothing is logged without a trace in the
  output, and each diagnostic has its warning.
-/

namespace CallBridge

open Generated

/-! ## Names declared anew -/

/-- The declarations whose names have been declared before. -/
def repeats (declarations : List Declaration) : List Declaration :=
  (declarations.zipIdx.filter fun entry =>
    entry.1.name ∈ (declarations.take entry.2).map Declaration.name).map Prod.fst

/-- Another declaration is a repeat if its name has been declared before, and makes no other
declaration one. -/
theorem repeats_concat (ds : List Declaration) (d : Declaration) :
    repeats (ds ++ [d]) =
      repeats ds ++ if d.name ∈ ds.map Declaration.name then [d] else [] := by
  have hearlier : ∀ entry ∈ ds.zipIdx, (ds ++ [d]).take entry.2 = ds.take entry.2 := by
    intro entry hentry
    have hlt := List.snd_lt_of_mem_zipIdx hentry
    exact List.take_append_of_le_length (by omega)
  have hfront : ds.zipIdx.filter (fun entry =>
        entry.1.name ∈ ((ds ++ [d]).take entry.2).map Declaration.name) =
      ds.zipIdx.filter fun entry => entry.1.name ∈ (ds.take entry.2).map Declaration.name := by
    refine List.filter_congr fun entry hentry => ?_
    rw [hearlier entry hentry]
  have hlast : (ds ++ [d]).take (0 + ds.length) = ds := by
    rw [Nat.zero_add, List.take_left]
  rw [repeats, List.zipIdx_append, List.filter_append, List.map_append, hfront,
    List.zipIdx_singleton, List.filter_singleton, hlast]
  by_cases hd : d.name ∈ ds.map Declaration.name <;> simp [repeats, hd]

/-- Another declaration adds its name if it is new. -/
theorem declaredNames_concat (ds : List Declaration) (d : Declaration) :
    declaredNames (ds ++ [d]) =
      declaredNames ds ++ if d.name ∈ ds.map Declaration.name then [] else [d.name] := by
  rw [declaredNames, declaredNames, List.map_append, List.eraseDups_append]
  generalize ds.map Declaration.name = names
  by_cases hd : d.name ∈ names <;> simp [List.removeAll, List.eraseDups_cons, hd]

/-- Each declaration is a repeat or the first one of its name. -/
theorem length_repeats (declarations : List Declaration) :
    (repeats declarations).length + (declaredNames declarations).length = declarations.length := by
  induction declarations using List.reverseRecOn with
  | nil => rfl
  | append_singleton ds d ih =>
    rw [repeats_concat, declaredNames_concat]
    simp only [List.length_append, List.length_singleton]
    by_cases hd : d.name ∈ ds.map Declaration.name
    · rw [if_pos hd, if_pos hd, List.length_singleton, List.length_nil]
      omega
    · rw [if_neg hd, if_neg hd, List.length_singleton, List.length_nil]
      omega

/-! ## Records and what they tell of -/

/-- The record of a declaration whose name has been declared before. -/
def Declaration.repeatRecord (d : Declaration) : Log.Record :=
  ⟨.debug, "duplicate declaration of " ++ d.name ++ ", later one wins"⟩

/-- The record of a wrapper. -/
def Generated.Wrapper.record (w : Wrapper) : Log.Record :=
  ⟨.debug, "emitted " ++ w.name ++ " (" ++ w.strategy.label ++ ")"⟩

/-- The warning that belongs to a diagnostic of a source. -/
def Diagnostic.record (provenance : String) : Diagnostic → Log.Record
  | .undeclared name => ⟨.warn, name ++ " is in the dispatch table but not in " ++ provenance⟩
  | .missingSlot m => ⟨.warn, "dispatch slot " ++ m.slot ++ " has no wrapper for " ++ m.name⟩

/-- Whether a diagnostic tells of a function that is not declared. -/
def Diagnostic.isUndeclared : Diagnostic → Bool
  | .undeclared _ => true
  | .missingSlot _ => false

/-- The record at the end of a run: how many names are declared, and how many wrappers and
diagnostics there are. -/
def totalsRecord (names wrappers diagnostics : Nat) : Log.Record :=
  ⟨.info, toString names ++ " declarations, " ++ toString wrappers ++ " wrappers, " ++
    toString diagnostics ++ " diagnostics"⟩

/-- Collecting declarations records the repeats, in order. -/
theorem records_gather (declarations : List Declaration) :
    (gather declarations).records = (repeats declarations).map Declaration.repeatRecord := by
  induction declarations using List.reverseRecOn with
  | nil => rfl
  | append_singleton ds d ih =>
    have hlast : (gather (ds ++ [d])).records =
        (gather ds).records ++ (register (collect ds) d).records := by
      rw [gather, List.foldlM_append, Log.Recorded.records_bind, List.foldlM_cons,
        Log.Recorded.records_bind]
      exact congrArg _ (List.append_nil _)
    have hknown : (collect ds).has d.name = true ↔ d.name ∈ ds.map Declaration.name := by
      rw [Table.has_eq_true_iff, Generator.mem_keys_collect_iff]
    rw [hlast, ih, repeats_concat, List.map_append, register]
    by_cases hd : d.name ∈ ds.map Declaration.name
    · rw [if_pos (hknown.mpr hd), if_pos hd]
      rfl
    · rw [if_neg (mt hknown.mp hd), if_neg hd]
      rfl

theorem Diagnostic.level_record (provenance : String) (d : Diagnostic) :
    (d.record provenance).level = .warn := by
  cases d <;> rfl

namespace Generator

/-- The diagnostics on functions that are not declared. -/
theorem filter_isUndeclared_diagnostics (g : Generator) (source : Source) :
    (g.run source).1.diagnostics.filter Diagnostic.isUndeclared =
      (g.undeclared (collect source.pending)).map Diagnostic.undeclared := by
  rw [diagnostics_run, List.filter_append, List.filter_map, List.filter_map]
  simp [Function.comp_def, Diagnostic.isUndeclared]

/-- The diagnostics on slots that are left unset. -/
theorem filter_not_isUndeclared_diagnostics (g : Generator) (source : Source) :
    (g.run source).1.diagnostics.filter (!·.isUndeclared) =
      (g.missing (g.wrappers (collect source.pending))).map Diagnostic.missingSlot := by
  rw [diagnostics_run, List.filter_append, List.filter_map, List.filter_map]
  simp [Function.comp_def, Diagnostic.isUndeclared]

/-- The declarations that are written record the wrappers among them, in order. -/
theorem records_writeEntries_collect (g : Generator) (declarations : List Declaration) :
    (g.writeEntries (collect declarations)).records =
      (g.wrappers (collect declarations)).map fun entry => entry.2.record := by
  have hindexed := indexed_collect declarations
  rw [records_writeEntries g hindexed, wrappers_of_indexed g hindexed, List.map_map, kept]
  induction collect declarations with
  | nil => rfl
  | cons entry rest ih =>
    rw [List.flatMap_cons, ih, entryRecords, List.filter_cons]
    by_cases hretains : g.Retains entry.1
    · rw [if_pos hretains, if_pos (decide_eq_true hretains)]
      rfl
    · rw [if_neg hretains, if_neg (by simpa using hretains)]
      rfl

/-- The wiring routine records the slots that are left unset, in order. -/
theorem records_wire (g : Generator) (declarations : List Declaration) :
    (g.wire (g.wrappers (collect declarations))).records =
      (g.missing (g.wrappers (collect declarations))).map MissingSlot.record := by
  cases hreq : g.requirement with
  | none =>
    rw [missing, wire, hreq]
    rfl
  | some r => rw [missing, wire_of_required hreq]

/-- The log of a run, read off its output. -/
theorem log_run (g : Generator) (source : Source) :
    (g.run source).1.log =
      (repeats source.pending).map Declaration.repeatRecord ++
        ((g.run source).1.diagnostics.filter Diagnostic.isUndeclared).map
          (Diagnostic.record source.provenance) ++
        (g.run source).1.wrappers.map (fun entry => entry.2.record) ++
        ((g.run source).1.diagnostics.filter (!·.isUndeclared)).map
          (Diagnostic.record source.provenance) ++
        [totalsRecord (declaredNames source.pending).length (g.run source).1.wrappers.length
          (g.run source).1.diagnostics.length] := by
  have hnames : (collect source.pending).length = (declaredNames source.pending).length := by
    rw [declaredNames, ← keys_collect, Table.keys, List.length_map]
  have hsteps : (g.run source).1.log =
      (gather source.pending).records ++
        ((g.noteUndeclared source.provenance (collect source.pending)).records ++
        ((g.writeEntries (collect source.pending)).records ++
        ((g.wire (g.wrappers (collect source.pending))).records ++
        [totalsRecord (collect source.pending).length (g.run source).1.wrappers.length
          (g.run source).1.diagnostics.length]))) :=
    rfl
  have hundeclared : (g.noteUndeclared source.provenance (collect source.pending)).records =
      ((g.undeclared (collect source.pending)).map Diagnostic.undeclared).map
        (Diagnostic.record source.provenance) := by
    rw [noteUndeclared, Log.Recorded.mapM_log, List.map_map]
    rfl
  have hmissing : (g.wire (g.wrappers (collect source.pending))).records =
      ((g.missing (g.wrappers (collect source.pending))).map Diagnostic.missingSlot).map
        (Diagnostic.record source.provenance) := by
    rw [records_wire, List.map_map]
    rfl
  rw [hsteps, records_gather, hundeclared, records_writeEntries_collect, hmissing, hnames,
    filter_isUndeclared_diagnostics, filter_not_isUndeclared_diagnostics, wrappers_run]
  simp only [List.append_assoc]

/-- Records of one level are all warnings, or none of them is one. -/
theorem filter_warn_map {α : Type} {record : α → Log.Record} {level : Log.Level}
    (hlevel : ∀ a, (record a).level = level) (xs : List α) :
    (xs.map record).filter (·.level = .warn) = if level = .warn then xs.map record else [] := by
  by_cases hwarn : level = .warn
  · rw [if_pos hwarn, List.filter_eq_self]
    simp [hlevel, hwarn]
  · rw [if_neg hwarn, List.filter_eq_nil_iff]
    simp [hlevel, hwarn]

/-- The warnings of a run belong to its diagnostics, one by one. -/
theorem warnings_run (g : Generator) (source : Source) :
    (g.run source).1.log.filter (·.level = .warn) =
      (g.run source).1.diagnostics.map (Diagnostic.record source.provenance) := by
  have hrepeat (d : Declaration) : d.repeatRecord.level = .debug := rfl
  have hwrapper (entry : String × Wrapper) : entry.2.record.level = .debug := rfl
  have htotals (names wrappers diagnostics : Nat) :
      [totalsRecord names wrappers diagnostics].filter (·.level = .warn) = [] := rfl
  simp only [log_run, List.filter_append, filter_warn_map hrepeat, filter_warn_map hwrapper,
    filter_warn_map (Diagnostic.level_record source.provenance), htotals, reduceCtorEq, if_false,
    if_true, List.nil_append, List.append_nil]
  rw [← List.map_append, filter_isUndeclared_diagnostics, filter_not_isUndeclared_diagnostics,
    ← diagnostics_run]

/-- The log of a run accounts for all that is in its output.

* It tells, in this order, of each declaration of a name declared before, of each required function
  that is not declared, of each wrapper, of each slot left unset, and of the totals.
* Each declaration is the first one of its name or tells of a name declared before.
* A wrapper is logged under the name made from the name of its function.
* The warnings belong to the diagnostics, one by one and in their order. -/
theorem records_of_run (config : Config) (options : Options)
    (requirement : Option Dispatch.Requirement) (source : Source) :
    let declarations := source.pending
    let output := ((Generator.mk config options requirement).run source).1
    let warning := Diagnostic.record source.provenance
    output.log =
      (repeats declarations).map Declaration.repeatRecord ++
        (output.diagnostics.filter Diagnostic.isUndeclared).map warning ++
        output.wrappers.map (fun entry => entry.2.record) ++
        (output.diagnostics.filter (!·.isUndeclared)).map warning ++
        [totalsRecord (declaredNames declarations).length output.wrappers.length
          output.diagnostics.length] ∧
    (repeats declarations).length + (declaredNames declarations).length = declarations.length ∧
    (∀ entry ∈ output.wrappers, entry.2.name = config.wrapperName entry.1) ∧
    output.log.filter (·.level = .warn) = output.diagnostics.map warning := by
  intro declarations output warning
  have hnames (entry : String × Wrapper) (hmem : entry ∈ output.wrappers) :
      entry.2.name = config.wrapperName entry.1 :=
    name_of_mem_wrappers hmem
  exact ⟨log_run _ source, length_repeats declarations, hnames, warnings_run _ source⟩

end Generator

end CallBridge
