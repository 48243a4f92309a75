import CallBridge.Proofs.Generation.Reference

/-!
# Which functions share a resolution slot

With pre-resolution the slots of a file are variables of the whole file.  The variable of a
function is named after its function pointer type, which has the name of the function in capital
letters, while everything else goes by the name as it is.

* `slotVariable_eq_iff`: two functions have one variable exactly if their names are the same in
  capital letters;
* `names_retainedSignatures`: a file declares one variable for each retained name, in order;
* `slots_of_preresolution` says when all variables of a file are distinct, and
  `slots_glFoo_glFOO` shows a file in which they are not.
-/

namespace CallBridge

open Generated

/-- The variable that keeps the address of a function in a file with pre-resolution. -/
def Signature.slotVariable (s : Signature) : String :=
  s.procType ++ "_slot"

theorem Signature.procType_eq_iff {s t : Signature} :
    s.procType = t.procType ↔ asciiUpper s.name = asciiUpper t.name := by
  rw [procType, procType, String.append_left_inj, String.append_right_inj]

theorem Signature.slotVariable_eq_iff {s t : Signature} :
    s.slotVariable = t.slotVariable ↔ asciiUpper s.name = asciiUpper t.name := by
  rw [slotVariable, slotVariable, String.append_left_inj, procType_eq_iff]

namespace Generator

/-- The functions whose slots are declared are those of the retained names. -/
theorem names_retainedSignatures (g : Generator) (declarations : List Declaration) :
    (g.retainedSignatures (collect declarations)).map Signature.name =
      g.retainedNames declarations := by
  have hindexed := indexed_collect declarations
  rw [retainedSignatures_of_indexed g hindexed, List.map_map, ← keys_kept_collect, Table.keys]
  apply List.map_congr_left
  intro entry hmem
  exact hindexed.name_eq entry (List.mem_filter.mp hmem).1

/-- The slot lines begin the block. -/
theorem exists_preresolutionText_eq (signatures : List Signature) (apiPrefix : String) :
    ∃ routine, preresolutionText signatures apiPrefix =
      unlines (signatures.map slotLine) ++ routine := by
  rw [preresolutionText, List.append_assoc, List.append_assoc, unlines_append]
  exact ⟨_, rfl⟩

/-- The slot lines of a file stand together. -/
theorem exists_text_eq_slotLines {g : Generator} (hpreresolve : g.options.preresolve = true)
    (source : Source) :
    ∃ before after, (g.run source).1.text =
      before ++ unlines ((g.retainedSignatures (collect source.pending)).map slotLine) ++ after := by
  obtain ⟨routine, hblock⟩ := exists_preresolutionText_eq
    (g.retainedSignatures (collect source.pending)) g.config.apiPrefix
  refine ⟨provenanceComment source.provenance ++
    (if g.options.prelude then preludeText g.options.preresolve else ""),
    routine ++ g.body (collect source.pending) ++ g.wiring (g.wrappers (collect source.pending)),
    ?_⟩
  rw [text_run, opening, if_pos hpreresolve, hblock]
  simp only [String.append_assoc]

/-- A file with pre-resolution declares one slot for each retained function, in order.  Two of
these functions share a slot exactly if their names are the same in capital letters, so the slots
are distinct exactly if no two retained names differ in nothing but the case of letters. -/
theorem slots_of_preresolution (config : Config) (options : Options)
    (requirement : Option Dispatch.Requirement) (source : Source) :
    let g := Generator.mk config { options with preresolve := true } requirement
    let retained := g.retainedSignatures (collect source.pending)
    retained.map Signature.name = g.retainedNames source.pending ∧
      (∃ before after,
        (g.run source).1.text = before ++ unlines (retained.map slotLine) ++ after) ∧
      (∀ s ∈ retained, ∀ t ∈ retained,
        s.slotVariable = t.slotVariable ↔ asciiUpper s.name = asciiUpper t.name) ∧
      ((retained.map Signature.slotVariable).Nodup ↔
        (g.retainedNames source.pending).Pairwise fun a b => asciiUpper a ≠ asciiUpper b) := by
  intro g retained
  have hnames := names_retainedSignatures g source.pending
  refine ⟨hnames, exists_text_eq_slotLines rfl source, ?_, ?_⟩
  · intro s _ t _
    exact Signature.slotVariable_eq_iff
  · rw [← hnames, List.Nodup, List.pairwise_map, List.pairwise_map]
    exact List.Pairwise.iff fun _ _ => not_congr Signature.slotVariable_eq_iff

/-- Two functions that differ in the case of letters are both retained, and their slot is declared
twice. -/
theorem slots_glFoo_glFOO :
    let source : Source := ⟨"gl.h", [⟨⟨"glFoo", "void", .void⟩, "GL_VERSION_2_0"⟩,
      ⟨⟨"glFOO", "void", .void⟩, "GL_VERSION_2_0"⟩]⟩
    let g : Generator := { options := { preresolve := true } }
    let retained := g.retainedSignatures (collect source.pending)
    retained.map Signature.name = ["glFoo", "glFOO"] ∧
      retained.map slotLine = ["RESOLVE_DECL(PFNGLFOOPROC);", "RESOLVE_DECL(PFNGLFOOPROC);"] ∧
      ¬ (retained.map Signature.slotVariable).Nodup := by
  decide +kernel

end Generator

end CallBridge
