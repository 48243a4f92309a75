import CallBridge.Proofs.Dispatch.Entries
import CallBridge.Proofs.Generation.Alignment
import CallBridge.Proofs.Text.ByteOrder
import Mathlib.Data.List.Nodup
import Mathlib.Data.List.Perm.Basic

/-!
# Every required slot is accounted for

A run decides in three places whether a slot is set: the limit on retained names, the
table of wrappers, and the exclusions.  `HasWrapper` is the one condition behind them:
the function is declared and not excluded.

* `requiredLines` and `routineLines` are the lines that have to be written, word by word;
* `mem_keys_wrappers_iff`: a required function is in the table of wrappers under this
  condition and no other;
* `fill_of_required` says what is written, noted and recorded for one required function, and
  `wire_of_required` says it for all of them;
* `wiring_and_diagnostics_of_run` puts it together: every required slot is either set to
  a wrapper that is defined earlier in the file, or warned of and reported.
-/

namespace CallBridge

open Generated
open Dispatch (Requirement)

/-- The slot of a function is set: the function is declared and not excluded. -/
def HasWrapper (config : Config) (declarations : List Declaration) (name : String) : Prop :=
  name ∈ declarations.map Declaration.name ∧ name ∉ config.exclusions

instance (config : Config) (declarations : List Declaration) (name : String) :
    Decidable (HasWrapper config declarations name) :=
  inferInstanceAs (Decidable (_ ∧ _))

/-- What the subsystem that owns a function does, if one does. -/
def ownerPhrase (name : String) : String :=
  ((Policy.Owner.all.find? fun owner => name ∈ owner.functions).map Policy.Owner.describe).getD
    "another subsystem"

/-- The lines of the wiring routine for a function and its slot: one that sets the slot,
or one that warns of it, and the reason before the warning if the function is excluded. -/
def requiredLines (config : Config) (declarations : List Declaration)
    (entry : String × String) : List String :=
  if HasWrapper config declarations entry.1 then
    ["  SET_" ++ entry.2 ++ "(disp, (void *)" ++ entry.1 ++ config.wrapperSuffix ++ ");"]
  else
    (if entry.1 ∈ config.exclusions then
      ["  /* " ++ entry.1 ++ " is excluded: owned by " ++ ownerPhrase entry.1 ++ " */"]
    else []) ++
      ["#warning No wrapper for " ++ entry.1 ++ " !"]

/-- The lines of the wiring routine around those for the required functions. -/
def routineLines (config : Config) (lines : List String) : List String := [
  "static " ++ config.tableType ++ " *" ++ config.setupFunction ++ "Table = NULL;",
  "",
  "static void " ++ config.setupFunction ++ "Init(void)",
  "\x7b",
  "  " ++ config.tableType ++ " *disp = calloc(_glapi_get_dispatch_table_size(), sizeof(void *));",
  "  assert(disp);",
  ""] ++ lines ++ [
  "",
  "  " ++ config.setupFunction ++ "Table = disp;",
  "\x7d",
  "",
  "void " ++ config.setupFunction ++ "(void)",
  "\x7b",
  "  static int once = 0;",
  "",
  "  tramp_call_once(&once, " ++ config.setupFunction ++ "Init);",
  "  _glapi_set_dispatch(" ++ config.setupFunction ++ "Table);",
  "\x7d"]

/-- The required slots that are set. -/
def filledEntries (config : Config) (declarations : List Declaration) (r : Requirement) :
    List (String × String) :=
  r.entries.filter fun entry => HasWrapper config declarations entry.1

/-- The required slots that are left unset. -/
def unsetEntries (config : Config) (declarations : List Declaration) (r : Requirement) :
    List (String × String) :=
  r.entries.filter fun entry => ¬ HasWrapper config declarations entry.1

/-- The slots that are noted as left unset, of those of some required functions. -/
def unsetSlots (config : Config) (declarations : List Declaration)
    (entries : List (String × String)) : List MissingSlot :=
  (entries.filter fun entry => ¬ HasWrapper config declarations entry.1).map fun entry =>
    ⟨entry.1, entry.2, decide (entry.1 ∈ config.exclusions)⟩

/-- The record of a slot that is left unset. -/
def Generated.MissingSlot.record (m : MissingSlot) : Log.Record :=
  ⟨.warn, "dispatch slot " ++ m.slot ++ " has no wrapper for " ++ m.name⟩

theorem unsetSlots_cons (config : Config) (declarations : List Declaration)
    (entry : String × String) (rest : List (String × String)) :
    unsetSlots config declarations (entry :: rest) =
      unsetSlots config declarations [entry] ++ unsetSlots config declarations rest := by
  rw [unsetSlots, unsetSlots, unsetSlots, ← List.map_append, ← List.filter_append,
    List.singleton_append]

theorem unsetSlots_singleton (config : Config) (declarations : List Declaration)
    (entry : String × String) :
    unsetSlots config declarations [entry] =
      if HasWrapper config declarations entry.1 then []
      else [⟨entry.1, entry.2, decide (entry.1 ∈ config.exclusions)⟩] := by
  rw [unsetSlots]
  by_cases hwrap : HasWrapper config declarations entry.1 <;> simp [hwrap]

/-! ## The owner of a function -/

/-- Among the functions of a subsystem, each with its owner, a name is found with this owner. -/
theorem find?_functions {owner : Policy.Owner} {name : String} :
    (owner.functions.map fun other => (other, owner)).find? (·.1 == name) =
      if name ∈ owner.functions then some (name, owner) else none := by
  rw [List.find?_map]
  by_cases hmem : name ∈ owner.functions
  · obtain ⟨before, after, hsplit, hfirst⟩ := List.eq_append_cons_of_mem hmem
    have hfind : owner.functions.find? (· == name) = some name :=
      List.find?_eq_some_iff_append.mpr ⟨beq_self_eq_true name, before, after, hsplit,
        fun other hother => by simpa using fun heq : other = name => hfirst (heq ▸ hother)⟩
    rw [if_pos hmem, Option.map_eq_some_iff]
    exact ⟨name, hfind, rfl⟩
  · rw [if_neg hmem, Option.map_eq_none_iff, List.find?_eq_none]
    rintro other hother heq
    exact hmem (eq_of_beq heq ▸ hother)

theorem ownerOf?_eq_find? (name : String) :
    Policy.ownerOf? name = Policy.Owner.all.find? fun owner => name ∈ owner.functions := by
  rw [Policy.ownerOf?, Policy.ownedFunctions]
  induction Policy.Owner.all with
  | nil => rfl
  | cons owner rest ih =>
    rw [List.flatMap_cons, List.find?_append, find?_functions, List.find?_cons]
    by_cases hmem : name ∈ owner.functions
    · simp [hmem]
    · simpa [hmem] using ih

theorem ownerText_eq_ownerPhrase (name : String) : ownerText name = ownerPhrase name := by
  rw [ownerText, ownerPhrase, ← ownerOf?_eq_find?]
  cases Policy.ownerOf? name <;> rfl

namespace Generator

/-! ## The table of wrappers -/

theorem mem_keys_collect_iff {name : String} {declarations : List Declaration} :
    name ∈ (collect declarations).keys ↔ name ∈ declarations.map Declaration.name := by
  rw [keys_collect, List.mem_eraseDups]

/-- A wrapper has the name that is made from the name of its function. -/
theorem name_of_mem_wrappers {g : Generator} {declarations : List Declaration}
    {entry : String × Wrapper} (hmem : entry ∈ g.wrappers (collect declarations)) :
    entry.2.name = g.config.wrapperName entry.1 := by
  rw [wrappers_of_indexed g (indexed_collect declarations)] at hmem
  obtain ⟨⟨name, d⟩, hkept, rfl⟩ := List.mem_map.mp hmem
  have hname := (indexed_collect declarations).name_eq _ (List.mem_filter.mp hkept).1
  show g.config.wrapperName d.name = g.config.wrapperName name
  rw [hname]

/-- The table of wrappers has exactly the required functions that are declared and not
excluded. -/
theorem mem_keys_wrappers_iff {g : Generator} {r : Requirement} (hreq : g.requirement = some r)
    {declarations : List Declaration} {name : String} :
    name ∈ (g.wrappers (collect declarations)).keys ↔
      name ∈ r.names ∧ HasWrapper g.config declarations name := by
  rw [keys_wrappers_of_indexed g (indexed_collect declarations), List.mem_filter,
    mem_keys_collect_iff, decide_eq_true_iff, HasWrapper, Retains, hreq]
  constructor
  · rintro ⟨hdeclared, hex, hslot⟩
    exact ⟨hslot r rfl, hdeclared, hex⟩
  · rintro ⟨hslot, hdeclared, hex⟩
    refine ⟨hdeclared, hex, ?_⟩
    rintro _ ⟨⟩
    exact hslot

theorem has_wrappers_of_required {g : Generator} {r : Requirement}
    (hreq : g.requirement = some r) {declarations : List Declaration}
    {entry : String × String} (hmem : entry ∈ r.entries) :
    (g.wrappers (collect declarations)).has entry.1 =
      decide (HasWrapper g.config declarations entry.1) := by
  have hname : entry.1 ∈ r.names := List.mem_map_of_mem hmem
  rw [Bool.eq_iff_iff, Table.has_eq_true_iff, mem_keys_wrappers_iff hreq, decide_eq_true_iff]
  exact and_iff_right hname

/-! ## Lines and reports -/

/-- A required function gets its lines.  If its slot is left unset, this is noted and
recorded. -/
theorem fill_of_required {g : Generator} {r : Requirement} (hreq : g.requirement = some r)
    {declarations : List Declaration} {entry : String × String} (hmem : entry ∈ r.entries)
    (w : Wiring) :
    w.fill (g.wrappers (collect declarations)) g.rules.isExcluded entry =
      ⟨⟨w.code.lines (requiredLines g.config declarations entry),
          w.missing ++ unsetSlots g.config declarations [entry]⟩,
        (unsetSlots g.config declarations [entry]).map MissingSlot.record⟩ := by
  have hhas : (g.wrappers (collect declarations)).has entry.1 = _ :=
    has_wrappers_of_required hreq hmem
  rw [Table.has] at hhas
  rw [requiredLines, unsetSlots_singleton, Wiring.fill]
  cases hget : (g.wrappers (collect declarations)).get? entry.1 with
  | none =>
    have hnot : ¬ HasWrapper g.config declarations entry.1 := by simpa [hget] using hhas.symm
    rw [if_neg hnot, if_neg hnot]
    simp only [isExcluded_rules, ownerText_eq_ownerPhrase]
    by_cases hex : entry.1 ∈ g.config.exclusions
    · rw [if_pos hex, decide_eq_true hex]
      rfl
    · rw [if_neg hex, decide_eq_false hex]
      rfl
  | some wrapper =>
    have hwrap : HasWrapper g.config declarations entry.1 := by simpa [hget] using hhas.symm
    have hname : wrapper.name = entry.1 ++ g.config.wrapperSuffix :=
      name_of_mem_wrappers (Table.mem_of_get?_eq_some hget)
    rw [if_pos hwrap, if_pos hwrap, List.append_nil]
    simp only [hname, ← String.append_assoc]
    rfl

/-- Required functions get their lines one after the other. -/
theorem foldlM_fill {g : Generator} {r : Requirement} (hreq : g.requirement = some r)
    {declarations : List Declaration} {entries : List (String × String)}
    (hentries : ∀ entry ∈ entries, entry ∈ r.entries) (w : Wiring) :
    entries.foldlM (Wiring.fill (g.wrappers (collect declarations)) g.rules.isExcluded) w =
      ⟨⟨w.code.lines (entries.flatMap (requiredLines g.config declarations)),
          w.missing ++ unsetSlots g.config declarations entries⟩,
        (unsetSlots g.config declarations entries).map MissingSlot.record⟩ := by
  induction entries generalizing w with
  | nil =>
    rw [unsetSlots, List.filter_nil, List.map_nil, List.append_nil]
    rfl
  | cons entry rest ih =>
    obtain ⟨hentry, hrest⟩ := List.forall_mem_cons.mp hentries
    rw [List.foldlM_cons, fill_of_required hreq hentry, Log.Recorded.mk_bind, ih hrest,
      unsetSlots_cons _ _ entry rest, List.flatMap_cons, Code.lines_append, List.map_append,
      List.append_assoc]

theorem closing_opening (config : Config) (lines : List String) :
    Wiring.closing config ((Wiring.opening config).lines lines) =
      ({} : Code).lines (routineLines config lines) := by
  simp only [Wiring.opening, Wiring.closing, Code.blank_eq_line, routineLines, Code.lines_append,
    Code.lines_cons, Code.lines_nil]

/-- The routine has its lines, and the slots left unset are noted and recorded. -/
theorem wire_of_required {g : Generator} {r : Requirement} (hreq : g.requirement = some r)
    (declarations : List Declaration) :
    g.wire (g.wrappers (collect declarations)) =
      ⟨⟨({} : Code).lines (routineLines g.config
            (r.entries.flatMap (requiredLines g.config declarations))),
          unsetSlots g.config declarations r.entries⟩,
        (unsetSlots g.config declarations r.entries).map MissingSlot.record⟩ := by
  rw [wire, hreq]
  show emitWiring r _ _ _ = _
  rw [emitWiring, Wiring.fillAll, foldlM_fill hreq fun _ hmem => hmem, Log.Recorded.mk_bind,
    ← closing_opening]
  simp

/-- The routine is written line by line. -/
theorem wiring_of_required {g : Generator} {r : Requirement} (hreq : g.requirement = some r)
    (declarations : List Declaration) :
    g.wiring (g.wrappers (collect declarations)) =
      String.join ((routineLines g.config
        (r.entries.flatMap (requiredLines g.config declarations))).map fun line => line ++ "\n") := by
  rw [wiring, wire_of_required hreq, Code.text_lines, unlines_eq_join]
  exact String.empty_append

theorem missing_of_required {g : Generator} {r : Requirement} (hreq : g.requirement = some r)
    (declarations : List Declaration) :
    g.missing (g.wrappers (collect declarations)) =
      unsetSlots g.config declarations r.entries := by
  rw [missing, wire_of_required hreq]

theorem undeclared_of_required {g : Generator} {r : Requirement}
    (hreq : g.requirement = some r) (declarations : List Declaration) :
    g.undeclared (collect declarations) =
      r.names.filter fun name => name ∉ declarations.map Declaration.name := by
  rw [undeclared, hreq]
  apply List.filter_congr
  intro name _
  rw [Bool.eq_iff_iff, Bool.not_eq_true', decide_eq_true_iff, ← mem_keys_collect_iff,
    ← Table.has_eq_true_iff, Bool.not_eq_true]

/-! ## Wrappers and the lines that set them -/

/-- A text that is joined with others stands among them. -/
theorem exists_append_of_mem_join {s : String} {texts : List String} (hmem : s ∈ texts) :
    ∃ front back, String.join texts = front ++ s ++ back := by
  obtain ⟨before, after, rfl⟩ := List.append_of_mem hmem
  refine ⟨String.join before, String.join after, ?_⟩
  rw [String.join_append, String.join_cons, String.append_assoc]

/-- The text of every wrapper stands in the body of the file. -/
theorem exists_append_of_mem_wrappers {g : Generator} {declarations : List Declaration}
    {entry : String × Wrapper} (hmem : entry ∈ g.wrappers (collect declarations)) :
    ∃ front back, g.body (collect declarations) = front ++ entry.2.text ++ back := by
  have hindexed := indexed_collect declarations
  rw [wrappers_of_indexed g hindexed] at hmem
  obtain ⟨⟨name, d⟩, hkept, rfl⟩ := List.mem_map.mp hmem
  obtain ⟨hdeclared, hretain⟩ := List.mem_filter.mp hkept
  rw [body_of_indexed g hindexed]
  refine exists_append_of_mem_join (List.mem_map.mpr ⟨(name, d), hdeclared, ?_⟩)
  rw [entryText, if_pos (by simpa using hretain)]

/-- The text of a wrapper begins with its definition: linkage, return type and name. -/
theorem exists_text_eq_of_mem_wrappers {g : Generator} {declarations : List Declaration}
    {entry : String × Wrapper} (hmem : entry ∈ g.wrappers (collect declarations)) :
    ∃ rest, entry.2.text =
      (if g.options.isStatic then "static " else "") ++ entry.2.signature.returnType ++ " " ++
        entry.1 ++ g.config.wrapperSuffix ++ "(" ++ rest := by
  rw [wrappers_of_indexed g (indexed_collect declarations)] at hmem
  obtain ⟨⟨name, d⟩, hkept, rfl⟩ := List.mem_map.mp hmem
  have hname : d.signature.name = name :=
    (indexed_collect declarations).name_eq _ (List.mem_filter.mp hkept).1
  refine ⟨declaredParameters d.signature.params ++ ")\n" ++
    unlines (["\x7b"] ++ bodyLines g.config g.options d.signature (g.strategyOf d.feature) ++
      ["\x7d", ""]), ?_⟩
  show unlines (headLine g.config g.options d.signature :: _) = _
  rw [unlines, headLine, Config.wrapperName, hname]
  simp only [String.append_assoc]
  rfl

theorem nodup_filledEntries (config : Config) (declarations : List Declaration)
    (r : Requirement) : ((filledEntries config declarations r).map Prod.fst).Nodup :=
  r.nodup_names.sublist (List.filter_sublist.map Prod.fst)

/-- The slots that are set are those of the wrappers. -/
theorem perm_filledEntries_wrappers {g : Generator} {r : Requirement}
    (hreq : g.requirement = some r) (declarations : List Declaration) :
    ((filledEntries g.config declarations r).map Prod.fst).Perm
      (g.wrappers (collect declarations)).keys := by
  have hfilled := nodup_filledEntries g.config declarations r
  have hwrappers := nodupKeys_wrappers_of_indexed g (indexed_collect declarations)
  refine (List.perm_ext_iff_of_nodup hfilled hwrappers).mpr fun name => ?_
  rw [mem_keys_wrappers_iff hreq, Requirement.names]
  constructor
  · intro hmem
    obtain ⟨entry, hin, rfl⟩ := List.mem_map.mp hmem
    obtain ⟨hentry, hwrap⟩ := List.mem_filter.mp hin
    exact ⟨List.mem_map_of_mem hentry, by simpa using hwrap⟩
  · rintro ⟨hname, hwrap⟩
    obtain ⟨entry, hentry, rfl⟩ := List.mem_map.mp hname
    exact List.mem_map_of_mem (List.mem_filter.mpr ⟨hentry, by simpa using hwrap⟩)

theorem wrapperName_injective (config : Config) {first second : String}
    (h : config.wrapperName first = config.wrapperName second) : first = second :=
  (String.append_left_inj config.wrapperSuffix).mp h

/-! ## The output -/

/-- The wiring routine ends the file, and every wrapper is defined before it. -/
theorem text_of_required {g : Generator} {r : Requirement} (hreq : g.requirement = some r)
    (source : Source) :
    ∃ before,
      (g.run source).1.text = before ++
        String.join ((routineLines g.config
          (r.entries.flatMap (requiredLines g.config source.pending))).map
            fun line => line ++ "\n") ∧
      ∀ entry ∈ (g.run source).1.wrappers, ∃ front rest back,
        before = front ++ entry.2.text ++ back ∧
        entry.2.text =
          (if g.options.isStatic then "static " else "") ++ entry.2.signature.returnType ++ " " ++
            entry.1 ++ g.config.wrapperSuffix ++ "(" ++ rest := by
  refine ⟨g.opening source.provenance (collect source.pending) ++
    g.body (collect source.pending), ?_, ?_⟩
  · rw [← wiring_of_required hreq, text_run]
  · intro entry hmem
    obtain ⟨front, back, hbody⟩ := exists_append_of_mem_wrappers hmem
    obtain ⟨rest, htext⟩ := exists_text_eq_of_mem_wrappers hmem
    refine ⟨g.opening source.provenance (collect source.pending) ++ front, rest, back, ?_, htext⟩
    simp only [hbody, String.append_assoc]

/-- The slots that are set and the wrappers correspond by the names of the functions and
of the wrappers. -/
theorem perm_filled_wrappers {g : Generator} {r : Requirement} (hreq : g.requirement = some r)
    (declarations : List Declaration) :
    ((filledEntries g.config declarations r).map fun entry =>
        (entry.1, g.config.wrapperName entry.1)).Perm
      ((g.wrappers (collect declarations)).map fun entry => (entry.1, entry.2.name)) := by
  have hnamed : ((g.wrappers (collect declarations)).map fun entry => (entry.1, entry.2.name)) =
      (g.wrappers (collect declarations)).keys.map
        fun name => (name, g.config.wrapperName name) := by
    rw [Table.keys, List.map_map]
    apply List.map_congr_left
    intro entry hmem
    rw [name_of_mem_wrappers hmem]
    rfl
  rw [hnamed]
  have hnames := (perm_filledEntries_wrappers hreq declarations).map
    fun name => (name, g.config.wrapperName name)
  rwa [List.map_map] at hnames

/-- No wrapper is set twice. -/
theorem nodup_filled_wrapperNames (config : Config) (declarations : List Declaration)
    (r : Requirement) :
    ((filledEntries config declarations r).map fun entry =>
      config.wrapperName entry.1).Nodup := by
  have hmapped := (nodup_filledEntries config declarations r).map
    fun _ _ => wrapperName_injective config
  rwa [List.map_map] at hmapped

theorem diagnostics_of_required {g : Generator} {r : Requirement}
    (hreq : g.requirement = some r) (source : Source) :
    (g.run source).1.diagnostics =
      ((r.names.filter fun name => name ∉ source.pending.map Declaration.name).map
          Diagnostic.undeclared) ++
        ((unsetEntries g.config source.pending r).map fun entry =>
          .missingSlot ⟨entry.1, entry.2, decide (entry.1 ∈ g.config.exclusions)⟩) := by
  rw [diagnostics_run, undeclared_of_required hreq, missing_of_required hreq, unsetSlots,
    List.map_map]
  rfl

theorem undeclared_mem_diagnostics_iff {g : Generator} {r : Requirement}
    (hreq : g.requirement = some r) {source : Source} {name : String} :
    .undeclared name ∈ (g.run source).1.diagnostics ↔
      name ∈ r.names ∧ name ∉ source.pending.map Declaration.name := by
  rw [diagnostics_of_required hreq]
  simp

/-- The slots that are reported unset are the required ones without a wrapper. -/
theorem missingSlot_mem_diagnostics_iff {g : Generator} {r : Requirement}
    (hreq : g.requirement = some r) {source : Source} {m : MissingSlot} :
    .missingSlot m ∈ (g.run source).1.diagnostics ↔
      (m.name, m.slot) ∈ r.entries ∧ ¬ HasWrapper g.config source.pending m.name ∧
        m.excluded = decide (m.name ∈ g.config.exclusions) := by
  rw [diagnostics_of_required hreq, unsetEntries]
  constructor
  · intro hmem
    rcases List.mem_append.mp hmem with hleft | hright
    · obtain ⟨_, _, heq⟩ := List.mem_map.mp hleft
      cases heq
    · obtain ⟨entry, hentry, heq⟩ := List.mem_map.mp hright
      obtain ⟨hin, hunset⟩ := List.mem_filter.mp hentry
      cases heq
      exact ⟨hin, by simpa using hunset, rfl⟩
  · rintro ⟨hin, hunset, hexcluded⟩
    refine List.mem_append_right _ (List.mem_map.mpr ⟨(m.name, m.slot), ?_, ?_⟩)
    · exact List.mem_filter.mpr ⟨hin, by simpa using hunset⟩
    · rw [← hexcluded]

/-- A function that is reported undeclared is reported again, with its slot unset. -/
theorem exists_missingSlot_of_undeclared {g : Generator} {r : Requirement}
    (hreq : g.requirement = some r) {source : Source} {name : String}
    (hmem : .undeclared name ∈ (g.run source).1.diagnostics) :
    ∃ m : MissingSlot, m.name = name ∧ .missingSlot m ∈ (g.run source).1.diagnostics := by
  obtain ⟨hname, hundeclared⟩ := (undeclared_mem_diagnostics_iff hreq).mp hmem
  obtain ⟨entry, hentry, rfl⟩ := List.mem_map.mp hname
  refine ⟨⟨entry.1, entry.2, decide (entry.1 ∈ g.config.exclusions)⟩, rfl, ?_⟩
  exact (missingSlot_mem_diagnostics_iff hreq).mpr
    ⟨hentry, fun hwrap => hundeclared hwrap.1, rfl⟩

/-- A slot is left unset for no reason but an exclusion, unless the function is reported
undeclared. -/
theorem excluded_of_missingSlot {g : Generator} {r : Requirement}
    (hreq : g.requirement = some r) {source : Source} {m : MissingSlot}
    (hmem : .missingSlot m ∈ (g.run source).1.diagnostics)
    (hdeclared : .undeclared m.name ∉ (g.run source).1.diagnostics) : m.excluded = true := by
  obtain ⟨hentry, hunset, hexcluded⟩ := (missingSlot_mem_diagnostics_iff hreq).mp hmem
  have hname : m.name ∈ r.names := List.mem_map_of_mem hentry
  rw [hexcluded, decide_eq_true_iff]
  by_cases hex : m.name ∈ g.config.exclusions
  · exact hex
  · have hin : m.name ∈ source.pending.map Declaration.name := by
      by_cases hin : m.name ∈ source.pending.map Declaration.name
      · exact hin
      · exact absurd ((undeclared_mem_diagnostics_iff hreq).mpr ⟨hname, hin⟩) hdeclared
    exact absurd ⟨hin, hex⟩ hunset

/-- Every required slot is accounted for.  The wiring routine ends the file and goes
through the required functions in the order of their bytes; it sets the slot of a function
that is declared and not excluded, and warns of every other.  What it sets are the
wrappers of the run, each of them once and each of them written before the routine.  The
diagnostics name the undeclared functions and then the slots left unset. -/
theorem wiring_and_diagnostics_of_run (config : Config) (options : Options)
    (r : Requirement) (source : Source) :
    let output := ((Generator.mk config options (some r)).run source).1
    let filled := filledEntries config source.pending r
    let unset := unsetEntries config source.pending r
    (r.names.Pairwise fun earlier later => Text.bytes earlier < Text.bytes later) ∧
    (∃ before,
      output.text = before ++
        String.join ((routineLines config
          (r.entries.flatMap (requiredLines config source.pending))).map
            fun line => line ++ "\n") ∧
      ∀ entry ∈ output.wrappers, ∃ front rest back,
        before = front ++ entry.2.text ++ back ∧
        entry.2.text =
          (if options.isStatic then "static " else "") ++ entry.2.signature.returnType ++ " " ++
            entry.1 ++ config.wrapperSuffix ++ "(" ++ rest) ∧
    (filled.map fun entry => (entry.1, config.wrapperName entry.1)).Perm
      (output.wrappers.map fun entry => (entry.1, entry.2.name)) ∧
    (filled.map fun entry => config.wrapperName entry.1).Nodup ∧
    output.diagnostics =
      ((r.names.filter fun name => name ∉ source.pending.map Declaration.name).map
          Diagnostic.undeclared) ++
        (unset.map fun entry =>
          .missingSlot ⟨entry.1, entry.2, decide (entry.1 ∈ config.exclusions)⟩) ∧
    (∀ entry ∈ unset, r.slotOf? entry.1 = some entry.2) ∧
    (∀ name, .undeclared name ∈ output.diagnostics →
      ∃ m : MissingSlot, m.name = name ∧ .missingSlot m ∈ output.diagnostics) ∧
    ∀ m : MissingSlot, .missingSlot m ∈ output.diagnostics →
      .undeclared m.name ∉ output.diagnostics → m.excluded = true := by
  have hreq : (Generator.mk config options (some r)).requirement = some r := rfl
  refine ⟨?_, text_of_required hreq source, perm_filled_wrappers hreq source.pending,
    nodup_filled_wrapperNames config source.pending r, diagnostics_of_required hreq source,
    ?_, ?_, ?_⟩
  · exact r.pairwise_names.imp fun h => Text.bytes_lt_bytes_iff.mpr h
  · intro entry hmem
    exact Requirement.slotOf?_of_mem (List.mem_filter.mp hmem).1
  · intro name
    exact exists_missingSlot_of_undeclared hreq
  · intro m
    exact excluded_of_missingSlot hreq

end Generator

end CallBridge
