import CallBridge.Proofs.Dispatch.Entries
import CallBridge.Proofs.Generation.Wiring
import Mathlib.Data.Set.Insert

/-!
# The order of discovery stays out of the wiring

Declarations come in the order of their source and slots in the order of the dispatch header.
The wiring routine and the reports are in the order of function names, whatever these orders
are.

* `wrappers_of_nodup`: with distinct names a run makes the wrappers declaration by declaration;
* `requiredLines_congr`, `wiring_of_perm` and `diagnostics_of_perm`: the wiring routine and the
  reports depend on which functions are declared, and on nothing else;
* `discovery_of_runs` compares two whole runs.
-/

namespace CallBridge

open Generated
open Dispatch (Requirement)

/-! ## Declarations with distinct names -/

/-- Declarations with distinct names are collected as they stand. -/
theorem collect_of_nodup {declarations : List Declaration}
    (hdistinct : (declarations.map Declaration.name).Nodup) :
    collect declarations = declarations.map fun d => (d.name, d) := by
  rw [collect_eq_ofList]
  apply Table.ofList_eq_self_of_nodupKeys
  rw [Table.NodupKeys, Table.keys, List.map_map]
  exact hdistinct

/-- Which slots are set depends on the declared names alone. -/
theorem hasWrapper_iff_of_perm {config : Config} {first second : List Declaration}
    (hperm : first.Perm second) (name : String) :
    HasWrapper config first name ↔ HasWrapper config second name :=
  and_congr_left' (hperm.map Declaration.name).mem_iff

theorem requiredLines_congr {config : Config} {first second : List Declaration}
    {entry : String × String}
    (h : HasWrapper config first entry.1 ↔ HasWrapper config second entry.1) :
    requiredLines config first entry = requiredLines config second entry := by
  rw [requiredLines, requiredLines]
  by_cases hwrap : HasWrapper config first entry.1
  · rw [if_pos hwrap, if_pos (h.mp hwrap)]
  · rw [if_neg hwrap, if_neg (h.not.mp hwrap)]

namespace Generator

variable {g : Generator} {r : Requirement} {first second : List Declaration}

/-- The wrappers of declarations with distinct names, one by one. -/
theorem wrappers_of_nodup (g : Generator) {declarations : List Declaration}
    (hdistinct : (declarations.map Declaration.name).Nodup) :
    g.wrappers (collect declarations) =
      (declarations.filter fun d => g.Retains d.name).map fun d => (d.name, g.wrapperOf d) := by
  rw [wrappers_of_indexed g (indexed_collect declarations), kept, collect_of_nodup hdistinct,
    List.filter_map, List.map_map]
  rfl

/-! ## Two orders of the same declarations -/

/-- The wiring routine does not depend on the order of the declarations. -/
theorem wiring_of_perm (hreq : g.requirement = some r) (hperm : first.Perm second) :
    g.wiring (g.wrappers (collect first)) = g.wiring (g.wrappers (collect second)) := by
  have hlines : r.entries.flatMap (requiredLines g.config first) =
      r.entries.flatMap (requiredLines g.config second) :=
    List.flatMap_congr fun entry _ => requiredLines_congr (hasWrapper_iff_of_perm hperm entry.1)
  rw [wiring_of_required hreq, wiring_of_required hreq, hlines]

/-- The reports do not depend on the order of the declarations. -/
theorem diagnostics_of_perm (hreq : g.requirement = some r) {source source' : Source}
    (hperm : source.pending.Perm source'.pending) :
    (g.run source).1.diagnostics = (g.run source').1.diagnostics := by
  have hundeclared : (r.names.filter fun name => name ∉ source.pending.map Declaration.name) =
      r.names.filter fun name => name ∉ source'.pending.map Declaration.name := by
    apply List.filter_congr
    intro name _
    rw [decide_eq_decide]
    exact not_congr (hperm.map Declaration.name).mem_iff
  have hunset : unsetEntries g.config source.pending r =
      unsetEntries g.config source'.pending r := by
    apply List.filter_congr
    intro entry _
    rw [decide_eq_decide]
    exact not_congr (hasWrapper_iff_of_perm hperm entry.1)
  rw [diagnostics_of_required hreq, diagnostics_of_required hreq, hundeclared, hunset]

/-! ## The output -/

theorem wiring_run (hreq : g.requirement = some r) (source : Source) :
    g.wiring (g.wrappers (collect source.pending)) =
      wiringText r (g.run source).1.wrappers g.rules.isExcluded g.config := by
  rw [wiring_eq, hreq]
  rfl

/-- The wiring routine ends the file. -/
theorem exists_text_eq_wiringText (hreq : g.requirement = some r) (source : Source) :
    ∃ front, (g.run source).1.text =
      front ++ wiringText r (g.run source).1.wrappers g.rules.isExcluded g.config := by
  refine ⟨g.opening source.provenance (collect source.pending) ++ g.body (collect source.pending),
    ?_⟩
  rw [← wiring_run hreq, text_run]

/-- Two runs over the same declarations in different orders, with requirements that ask for the
same slots.  The wiring routine, which ends the file, and the reports are the same; every
function has the same wrapper; and the wrappers stand in the order of the declarations they were
made from, each made from its declaration in the same way. -/
theorem discovery_of_runs (config : Config) (options : Options) (source source' : Source)
    {apiPrefix : String} {ignored : List String} {wanted : Set String} {r r' : Requirement}
    (hrequired : r.Asks apiPrefix ignored wanted) (hrequired' : r'.Asks apiPrefix ignored wanted)
    (hperm : source.pending.Perm source'.pending)
    (hdistinct : (source.pending.map Declaration.name).Nodup) :
    let g := Generator.mk config options (some r)
    let g' := Generator.mk config options (some r')
    let output := (g.run source).1
    let output' := (g'.run source').1
    let wiring := wiringText r output.wrappers g.rules.isExcluded config
    let wiring' := wiringText r' output'.wrappers g'.rules.isExcluded config
    wiring = wiring' ∧
      (∃ front, output.text = front ++ wiring) ∧ (∃ front', output'.text = front' ++ wiring') ∧
      output.diagnostics = output'.diagnostics ∧
      (∀ name, output.wrappers.get? name = output'.wrappers.get? name) ∧
      output.wrappers =
        (source.pending.filter fun d => g.Retains d.name).map
          (fun d => (d.name, g.wrapperOf d)) ∧
      output'.wrappers =
        (source'.pending.filter fun d => g.Retains d.name).map
          (fun d => (d.name, g.wrapperOf d)) := by
  obtain rfl := hrequired.unique hrequired'
  intro g g' output output' wiring wiring'
  have hreq : g.requirement = some r := rfl
  have hwrappers : output.wrappers = _ := wrappers_of_nodup g hdistinct
  have hwrappers' : output'.wrappers = _ :=
    wrappers_of_nodup g ((hperm.map Declaration.name).nodup_iff.mp hdistinct)
  have hsame : output.wrappers.Perm output'.wrappers := by
    rw [hwrappers, hwrappers']
    exact (hperm.filter _).map _
  have hwiring : wiring = wiring' := by
    have hperm := wiring_of_perm hreq hperm
    rwa [wiring_run hreq, wiring_run hreq] at hperm
  have hnodup : output.wrappers.NodupKeys :=
    nodupKeys_wrappers_of_indexed g (indexed_collect source.pending)
  exact ⟨hwiring, exists_text_eq_wiringText hreq source, exists_text_eq_wiringText hreq source',
    diagnostics_of_perm hreq hperm, Table.get?_eq_of_perm hsame hnodup, hwrappers, hwrappers'⟩

/-- A dispatch header with three setters, one of them for a slot to be ignored. -/
def sampleSetters : String :=
  "#define SET_Flush(disp, fn) SET_by_offset(disp, 1, fn)\nSET_by_offset(disp, offset, fn)\n" ++
    "  SET_Accum(disp, fn);\n"

/-- The sample asks for the slots that are not ignored. -/
theorem asks_sampleSetters :
    (Requirement.ofSlots "gl" ["Flush", "Accum"]).Asks "gl" ["by_offset"] {"Accum", "Flush"} := by
  have hparse : Requirement.parse sampleSetters "gl" ["by_offset"] =
      .ok (.ofSlots "gl" ["Flush", "Accum"]) := by
    decide +kernel
  have hslots : (Text.lines sampleSetters.toList).map (fun line =>
      Dispatch.setterSlot? (Text.trim line)) =
        ["Flush", "by_offset", "Accum"].map fun slot => some slot.toList := by
    decide +kernel
  refine .header hparse fun slot => ?_
  rw [← List.mem_map, hslots, List.mem_map]
  have hwanted : slot ∈ ({"Accum", "Flush"} : Set String) ↔ slot = "Accum" ∨ slot = "Flush" := by
    rw [Set.mem_insert_iff, Set.mem_singleton_iff]
  have hline : (∃ other ∈ ["Flush", "by_offset", "Accum"], some other.toList = some slot.toList) ↔
      slot = "Flush" ∨ slot = "by_offset" ∨ slot = "Accum" := by
    simp [String.toList_inj, eq_comm]
  rw [hwanted, hline, List.mem_singleton]
  constructor
  · intro h
    rcases h with rfl | rfl
    · exact ⟨by decide, Or.inr (Or.inr rfl)⟩
    · exact ⟨by decide, Or.inl rfl⟩
  · intro h
    obtain ⟨hne, hflush | hoffset | haccum⟩ := h
    · exact Or.inr hflush
    · exact absurd hoffset hne
    · exact Or.inl haccum

/-- Two functions declared in either order, with their slots read from a dispatch header or given
in order of their names. -/
theorem discovery_accum_flush :
    let accum : Declaration := ⟨⟨"glAccum", "void", .void⟩, "GL_VERSION_1_0"⟩
    let flush : Declaration := ⟨⟨"glFlush", "void", .void⟩, "GL_VERSION_2_0"⟩
    let r := Requirement.ofSlots "gl" ["Flush", "Accum"]
    let r' := Requirement.ofSlots "gl" ["Accum", "Flush", "Accum"]
    let output := ((Generator.mk {} {} (some r)).run ⟨"a.h", [flush, accum]⟩).1
    let output' := ((Generator.mk {} {} (some r')).run ⟨"b.h", [accum, flush]⟩).1
    r.Asks "gl" ["by_offset"] {"Accum", "Flush"} ∧
      r'.Asks "gl" ["by_offset"] {"Accum", "Flush"} ∧
      [flush, accum].Perm [accum, flush] ∧
      ([flush, accum].map Declaration.name).Nodup ∧
      wiringText r output.wrappers (fun name => ({} : Config).exclusions.contains name) {} =
        wiringText r' output'.wrappers (fun name => ({} : Config).exclusions.contains name) {} ∧
      output.diagnostics = output'.diagnostics ∧
      ∀ name, output.wrappers.get? name = output'.wrappers.get? name := by
  intro accum flush r r' output output'
  have hr : r.Asks "gl" ["by_offset"] {"Accum", "Flush"} := asks_sampleSetters
  have hr' : r'.Asks "gl" ["by_offset"] {"Accum", "Flush"} := .slots fun slot => by
    rw [Set.mem_insert_iff, Set.mem_singleton_iff]
    simp [or_comm]
  have hperm : [flush, accum].Perm [accum, flush] := .swap accum flush []
  have hdistinct : ([flush, accum].map Declaration.name).Nodup := by decide
  have hrun := discovery_of_runs {} {} ⟨"a.h", [flush, accum]⟩ ⟨"b.h", [accum, flush]⟩ hr hr'
    hperm hdistinct
  exact ⟨hr, hr', hperm, hdistinct, hrun.1, hrun.2.2.2.1, hrun.2.2.2.2.1⟩

end Generator

end CallBridge
