import CallBridge.Proofs.Generation.Reference

/-!
# Classifying declarations before and after they are collected

A run collects the declarations of a source first and takes its decisions afterwards, so that each
name is decided once.  The rules can also be applied to the declarations as they come: a decision
then takes the place of an earlier one on the same name, just as a declaration does when it is
collected.  Both ways lead to the same table.

* `Policy.Rules.classify_collect`: collecting before classifying changes nothing;
* `Policy.Rules.get?_classify`: the decision about a name is that of its last declaration;
* `Policy.Rules.retained_classify`: the retained names with their strategies, in order;
* `Policy.Rules.classification_of_declarations` puts them together.
-/

namespace CallBridge.Policy.Rules

variable (rules : Rules) (declarations : List Declaration)

theorem classify_collect :
    rules.classify ((collect declarations).map Prod.snd) = rules.classify declarations := by
  rw [classify_eq_map_collect, collect_values_of_indexed (indexed_collect declarations),
    ← classify_eq_map_collect]

theorem keys_classify : (rules.classify declarations).keys = declaredNames declarations := by
  rw [classify_eq_map_collect, declaredNames, ← keys_collect]
  simp [Table.keys]

theorem get?_classify (name : String) :
    (rules.classify declarations).get? name =
      (lastDeclaration? declarations name).map fun d => rules.decide name d.feature := by
  rw [classify_eq_map_collect,
    Table.get?_mapValues fun name (d : Declaration) => rules.decide name d.feature, get?_collect]
  rfl

/-- The retained names are those that no rule omits, and each is called as the feature of its last
declaration says. -/
theorem retained_classify :
    retained (rules.classify declarations) =
      ((declaredNames declarations).filter fun name => (rules.omission name).isNone).filterMap
        fun name =>
          (lastDeclaration? declarations name).map fun d => (name, rules.strategy d.feature) := by
  rw [← map_filter_collect (fun name => (rules.omission name).isNone) declarations
    fun name d => (name, rules.strategy d.feature)]
  rw [retained, classify_eq_map_collect, List.filter_map, List.map_map]
  rfl

/-- The table of decisions is the same for declarations as they come and for collected ones,
whatever the rules are and however often a name is declared.

* It has the declared names, each once, in order of first declaration.
* The decision about a name is the one about its last declaration, whatever has been decided about
  earlier ones.
* The same names are retained in the same order, and they are called in the same way: as the feature
  of the last declaration says. -/
theorem classification_of_declarations :
    rules.classify ((collect declarations).map Prod.snd) = rules.classify declarations ∧
    ((rules.classify declarations).keys = declaredNames declarations ∧
      (rules.classify declarations).keys.Nodup) ∧
    (∀ name decision, (rules.classify declarations).get? name = some decision ↔
      ∃ d, lastDeclaration? declarations name = some d ∧
        decision = rules.decide name d.feature) ∧
    retained (rules.classify ((collect declarations).map Prod.snd)) =
      retained (rules.classify declarations) ∧
    retained (rules.classify declarations) =
      ((declaredNames declarations).filter fun name => (rules.omission name).isNone).filterMap
        fun name =>
          (lastDeclaration? declarations name).map fun d => (name, rules.strategy d.feature) := by
  have hsame := rules.classify_collect declarations
  have hkeys := rules.keys_classify declarations
  have hnodup : (rules.classify declarations).keys.Nodup := by
    rw [hkeys, declaredNames, ← keys_collect]
    exact nodupKeys_collect declarations
  refine ⟨hsame, ⟨hkeys, hnodup⟩, fun name decision => ?_, congrArg retained hsame,
    rules.retained_classify declarations⟩
  rw [rules.get?_classify declarations name, Option.map_eq_some_iff]
  simp only [eq_comm]

/-- The later declaration of a name decides how it is called, and the name keeps its place. -/
example :
    let declared (name feature : String) : Declaration := ⟨⟨name, "void", .void⟩, feature⟩
    let rules : Rules := ⟨["wglSwap"], none, ["GL_VERSION_1_0"]⟩
    retained (rules.classify [declared "glFoo" "GL_VERSION_1_0", declared "wglSwap" "WGL_swap",
      declared "glBar" "GL_VERSION_2_0", declared "glFoo" "GL_VERSION_2_0"]) =
      [("glFoo", .resolved), ("glBar", .resolved)] := by
  decide +kernel

end CallBridge.Policy.Rules
