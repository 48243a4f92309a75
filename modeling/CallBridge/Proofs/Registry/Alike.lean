import CallBridge.Proofs.Markup.Documents
import CallBridge.Registry
import Mathlib.Data.List.Forall2

/-!
# Registries that differ in presentation only

Two elements are `Alike` if they have one tree: they differ at most in their lines and in where
text is cut into nodes.  Everything a registry reads of an element is then the same, and only
the lines of faults can tell two such registries apart.

* `typedName?_eq_map`: the type and the name that nodes give can be read off their trees;
* `sameOutcome_ofRoot`: registries that are alike declare the same, or fail with the same code;
* `parse_and_declarations_of_writesDocument`: so a registry may be presented in any way.
-/

namespace CallBridge.Markup

/-! ## Text and elements of trees -/

mutual

/-- All text in a tree. -/
def Tree.text : Tree → List Char
  | .char c => [c]
  | .element _ _ content => Tree.textOfAll content

/-- All text in trees, in order. -/
def Tree.textOfAll : List Tree → List Char
  | [] => []
  | t :: rest => t.text ++ Tree.textOfAll rest

end

def Tree.isElement : Tree → Bool
  | .char _ => false
  | .element _ _ _ => true

theorem Tree.textOfAll_append (ts us : List Tree) :
    textOfAll (ts ++ us) = textOfAll ts ++ textOfAll us := by
  induction ts with
  | nil => rfl
  | cons t ts ih => rw [List.cons_append, textOfAll, ih, textOfAll, List.append_assoc]

theorem Tree.textOfAll_map_char (cs : List Char) : textOfAll (cs.map .char) = cs := by
  induction cs with
  | nil => rfl
  | cons c cs ih => rw [List.map_cons, textOfAll, ih, text, List.singleton_append]

mutual

theorem Node.toList_allText (node : Node) :
    node.allText.toList = Tree.textOfAll node.trees := by
  cases node with
  | text content => rw [allText, trees_text, Tree.textOfAll_map_char]
  | element name attributes line children =>
    rw [allText, trees, Node.toList_textOfAll children, Tree.textOfAll, Tree.text, Tree.textOfAll,
      List.append_nil]

theorem Node.toList_textOfAll (nodes : List Node) :
    (Node.textOfAll nodes).toList = Tree.textOfAll (Node.treesOfAll nodes) := by
  cases nodes with
  | nil => rfl
  | cons node rest =>
    rw [textOfAll, String.toList_append, Node.toList_allText node, Node.toList_textOfAll rest,
      treesOfAll, Tree.textOfAll_append]

end

theorem map_tree_filterMap_element? (nodes : List Node) :
    (nodes.filterMap Node.element?).map Element.tree =
      (Node.treesOfAll nodes).filter Tree.isElement := by
  induction nodes with
  | nil => rfl
  | cons node rest ih =>
    rw [Node.treesOfAll, List.filter_append, ← ih]
    cases node with
    | text content =>
      have hnone : (content.toList.map Tree.char).filter Tree.isElement = [] := by
        simp [List.filter_eq_nil_iff, Tree.isElement]
      rw [Node.trees_text, hnone]
      rfl
    | element name attributes line children => rfl

/-! ## Elements that are alike -/

/-- Two elements with one tree. -/
def Alike (a b : Element) : Prop :=
  a.tree = b.tree

namespace Alike

variable {a b : Element}

theorem name_eq (h : Alike a b) : a.name = b.name :=
  (Tree.element.inj h).1

theorem attributes_eq (h : Alike a b) : a.attributes = b.attributes :=
  (Tree.element.inj h).2.1

theorem trees_eq (h : Alike a b) : Node.treesOfAll a.children = Node.treesOfAll b.children :=
  (Tree.element.inj h).2.2

theorem attribute?_eq (h : Alike a b) (name : String) : a.attribute? name = b.attribute? name := by
  rw [Element.attribute?, h.attributes_eq, ← Element.attribute?]

theorem elements (h : Alike a b) : List.Forall₂ Alike a.elements b.elements := by
  have hmap : a.elements.map Element.tree = b.elements.map Element.tree := by
    rw [Element.elements, map_tree_filterMap_element?, h.trees_eq,
      ← map_tree_filterMap_element?]
    rfl
  rwa [← List.forall₂_eq_eq_eq, List.forall₂_map_left_iff, List.forall₂_map_right_iff] at hmap

/-- Of lists that are alike, the elements with one name are alike. -/
theorem filter_name {xs ys : List Element} (h : List.Forall₂ Alike xs ys) (name : String) :
    List.Forall₂ Alike (xs.filter (·.name == name)) (ys.filter (·.name == name)) :=
  List.rel_filter (fun x y hxy => show (x.name == name) = true ↔ (y.name == name) = true by
    rw [hxy.name_eq]) h

theorem childrenNamed (h : Alike a b) (name : String) :
    List.Forall₂ Alike (a.childrenNamed name) (b.childrenNamed name) :=
  filter_name h.elements name

theorem find?_name {xs ys : List Element} (h : List.Forall₂ Alike xs ys) (name : String) :
    Option.Rel Alike (xs.find? (·.name == name)) (ys.find? (·.name == name)) := by
  induction h with
  | nil => exact .none
  | cons hchild _ ih =>
    rw [List.find?_cons, List.find?_cons, hchild.name_eq]
    split
    · exact .some hchild
    · exact ih

theorem child? (h : Alike a b) (name : String) :
    Option.Rel Alike (a.child? name) (b.child? name) :=
  find?_name h.elements name

end Alike

end CallBridge.Markup

namespace CallBridge.Registry

open Markup

/-! ## Names and types -/

/-- The text before the first `name` element and the text of that element. -/
def typedNameOfTrees? : List Tree → Option (List Char × List Char)
  | [] => none
  | .char c :: rest => (typedNameOfTrees? rest).map fun found => (c :: found.1, found.2)
  | .element name _ content :: rest =>
    if name = "name" then some ([], Tree.textOfAll content)
    else (typedNameOfTrees? rest).map fun found => (Tree.textOfAll content ++ found.1, found.2)

theorem typedNameOfTrees?_map_char_append (cs : List Char) (trees : List Tree) :
    typedNameOfTrees? (cs.map .char ++ trees) =
      (typedNameOfTrees? trees).map fun found => (cs ++ found.1, found.2) := by
  induction cs with
  | nil => simp
  | cons c cs ih =>
    rw [List.map_cons, List.cons_append, typedNameOfTrees?, ih, Option.map_map]
    rfl

/-- The type and the name that nodes give can be read off their trees. -/
theorem typedName?_eq_map (nodes : List Node) :
    typedName? nodes = (typedNameOfTrees? (Node.treesOfAll nodes)).map fun found =>
      (String.ofList found.1, String.ofList found.2) := by
  induction nodes with
  | nil => rfl
  | cons node rest ih =>
    cases node with
    | text content =>
      rw [typedName?, ih, Node.treesOfAll, Node.trees_text, typedNameOfTrees?_map_char_append,
        Option.map_map, Option.map_map]
      simp [Function.comp_def, String.ofList_append]
    | element name attributes line children =>
      rw [typedName?, ih, Node.treesOfAll, Node.trees, List.singleton_append, typedNameOfTrees?,
        ← Node.toList_textOfAll]
      split
      · simp
      · rw [Option.map_map, Option.map_map]
        simp [Function.comp_def, String.ofList_append]

/-! ## Outcomes -/

/-- The code under which a fault is reported. -/
def Fault.code (fault : Fault) : String :=
  fault.report.code

/-- The same result, or faults with the same code. -/
def SameOutcome {α : Type} (x y : Except Fault α) : Prop :=
  x.mapError Fault.code = y.mapError Fault.code

namespace SameOutcome

variable {α β : Type} {x y : Except Fault α}

theorem bind (h : SameOutcome x y) {f g : α → Except Fault β}
    (hnext : ∀ a, SameOutcome (f a) (g a)) : SameOutcome (x >>= f) (y >>= g) := by
  cases x with
  | error e =>
    cases y with
    | error e' => exact congrArg Except.error (Except.error.inj h)
    | ok b => cases h
  | ok a =>
    cases y with
    | error e' => cases h
    | ok b =>
      obtain rfl : a = b := Except.ok.inj h
      exact hnext a

end SameOutcome

/-! ## Signatures -/

theorem sameOutcome_typedName {a b : Element} (h : Alike a b) :
    SameOutcome (typedName a) (typedName b) := by
  rw [typedName, typedName, typedName?_eq_map, typedName?_eq_map, h.trees_eq]
  split
  · rfl
  · rfl

theorem sameOutcome_parameters {xs ys : List Element} (h : List.Forall₂ Alike xs ys) :
    SameOutcome (parameters xs) (parameters ys) := by
  induction h with
  | nil => rfl
  | cons hfirst _ ih =>
    rw [parameters, parameters]
    exact (sameOutcome_typedName hfirst).bind fun _ => ih.bind fun _ => rfl

theorem sameOutcome_signature {a b : Element} (h : Alike a b) :
    SameOutcome (signature a) (signature b) := by
  have hproto := h.child? "proto"
  have hparams := sameOutcome_parameters (h.childrenNamed "param")
  rw [signature, signature]
  generalize a.child? "proto" = p at hproto ⊢
  generalize b.child? "proto" = q at hproto ⊢
  cases hproto with
  | none => rfl
  | some hpq =>
    exact (sameOutcome_typedName hpq).bind fun _ => hparams.bind fun _ => rfl

theorem sameOutcome_signatures {xs ys : List Element} (h : List.Forall₂ Alike xs ys) :
    SameOutcome (signatures xs) (signatures ys) := by
  induction h with
  | nil => rfl
  | cons hfirst _ ih =>
    rw [signatures, signatures]
    exact (sameOutcome_signature hfirst).bind fun _ => ih.bind fun _ => rfl

theorem alike_definedCommands {a b : Element} (h : Alike a b) :
    List.Forall₂ Alike (definedCommands a) (definedCommands b) :=
  List.rel_flatMap (h.childrenNamed "commands") fun _ _ hblock => hblock.childrenNamed "command"

/-! ## Requirements -/

theorem alike_applicable {a b : Element} (h : Alike a b) (api : String) :
    List.Forall₂ Alike (applicable a api) (applicable b api) := by
  refine List.rel_append (List.rel_filter (fun x y hxy => ?_) (h.childrenNamed "feature"))
    (List.rel_flatMap (h.childrenNamed "extensions") fun x y hxy =>
      List.rel_filter (fun u w huw => ?_) (hxy.childrenNamed "extension"))
  · show (x.attribute? "api" == some api) = true ↔ (y.attribute? "api" == some api) = true
    rw [hxy.attribute?_eq]
  · show supports u api = true ↔ supports w api = true
    rw [supports, supports, huw.attribute?_eq]

/-- The commands that a feature requires, without their lines. -/
theorem map_command_mentions (feature : Element) (api : String) :
    (mentions feature api).map Mention.command =
      ((feature.childrenNamed "require").filter (applies · api)).flatMap fun requirement =>
        (requirement.childrenNamed "command").filterMap (·.attribute? "name") := by
  simp only [mentions, List.map_flatMap, List.map_filterMap, Option.map_map, Function.comp_def,
    Option.map_id']

/-- Features that are alike require the same commands, though on other lines. -/
theorem commands_eq_of_alike {a b : Element} (h : Alike a b) (api : String) :
    (mentions a api).map Mention.command = (mentions b api).map Mention.command := by
  rw [map_command_mentions, map_command_mentions, ← List.forall₂_eq_eq_eq]
  refine List.rel_flatMap
    (List.rel_filter (fun x y hxy => ?_) (h.childrenNamed "require")) fun x y hxy =>
      List.rel_filterMap (fun u w huw => ?_) (hxy.childrenNamed "command")
  · show applies x api = true ↔ applies y api = true
    rw [applies, applies, hxy.attribute?_eq, hxy.attribute?_eq]
  · show Option.Rel Eq (u.attribute? "name") (w.attribute? "name")
    rw [huw.attribute?_eq]
    cases w.attribute? "name" with
    | none => exact .none
    | some name => exact .some rfl

/-! ## Declarations -/

theorem sameOutcome_declareMentions (table : List Signature) (feature : String)
    {xs ys : List Mention} (h : xs.map Mention.command = ys.map Mention.command)
    (seen : List String) :
    SameOutcome (declareMentions table feature seen xs)
      (declareMentions table feature seen ys) := by
  induction xs generalizing ys seen with
  | nil =>
    obtain rfl : ys = [] := List.map_eq_nil_iff.mp h.symm
    rfl
  | cons x xs ih =>
    obtain ⟨y, ys, rfl, hxy, hrest⟩ := List.map_eq_cons_iff.mp h.symm
    rw [declareMentions, declareMentions, hxy]
    split
    · exact ih hrest.symm seen
    · split
      · rfl
      · exact (ih hrest.symm _).bind fun _ => rfl

theorem sameOutcome_declareAll (table : List Signature) (api : String) {xs ys : List Element}
    (h : List.Forall₂ Alike xs ys) (seen : List String) :
    SameOutcome (declareAll table api seen xs) (declareAll table api seen ys) := by
  induction h generalizing seen with
  | nil => rfl
  | cons hfirst _ ih =>
    rw [declareAll, declareAll, hfirst.attribute?_eq]
    split
    · rfl
    · exact (sameOutcome_declareMentions table _ (commands_eq_of_alike hfirst api) seen).bind
        fun found => (ih found.2).bind fun _ => rfl

/-- Registries that are alike declare the same, or fail with the same code. -/
theorem sameOutcome_ofRoot {a b : Element} (h : Alike a b) (api : String) :
    SameOutcome (ofRoot a api) (ofRoot b api) := by
  rw [ofRoot, ofRoot, h.name_eq]
  split
  · rfl
  · exact (sameOutcome_signatures (alike_definedCommands h)).bind fun table =>
      sameOutcome_declareAll table api (alike_applicable h api) []

theorem mapError_code_declarations {text : String} {root : Element} (hroot : parse text = .ok root)
    (api : String) :
    (declarations text api).mapError Report.code = (ofRoot root api).mapError Fault.code := by
  rw [declarations, hroot]
  dsimp only
  cases ofRoot root api <;> rfl

/-! ## Presentations -/

/-- A plain tree is read back from every document that writes it, whatever the presentation, and
any two such documents give the same declarations or fail with the same code. -/
theorem parse_and_declarations_of_writesDocument {tree : Tree} (hplain : tree.IsPlain) :
    (∀ text : String, WritesDocument tree text.toList →
      ∃ root, parse text = .ok root ∧ root.tree = tree) ∧
    ∀ text₁ text₂ api : String, WritesDocument tree text₁.toList →
      WritesDocument tree text₂.toList →
      (declarations text₁ api).mapError Report.code =
        (declarations text₂ api).mapError Report.code := by
  refine ⟨fun text hwritten => parse_of_writesDocument hplain hwritten, ?_⟩
  intro text₁ text₂ api hwritten₁ hwritten₂
  obtain ⟨root₁, hparse₁, htree₁⟩ := parse_of_writesDocument hplain hwritten₁
  obtain ⟨root₂, hparse₂, htree₂⟩ := parse_of_writesDocument hplain hwritten₂
  have halike : Alike root₁ root₂ := htree₁.trans htree₂.symm
  rw [mapError_code_declarations hparse₁, mapError_code_declarations hparse₂]
  exact sameOutcome_ofRoot halike api

/-- A registry with a text, an attribute and an empty element. -/
def sampleTree : Tree :=
  .element "registry" [("api", "g")] [.char '<', .element "command" [] []]

theorem isPlain_sampleTree : sampleTree.IsPlain := by
  refine .element (by decide) (by decide) (List.forall_mem_cons.mpr ⟨.char (by decide), ?_⟩)
  exact List.forall_mem_singleton.mpr (.element (by decide) (by decide) (List.forall_mem_nil _))

def briefDocument : String :=
  "<registry api=\"g\">&lt;<command/></registry>"

def fullDocument : String :=
  "<?xml version='1.0'?><!-- the same --><registry api = '&#103;'><![CDATA[<]]><command></command ></registry>"

theorem writesDocument_briefDocument : WritesDocument sampleTree briefDocument.toList := by
  have hgap : IsGap [' '] := by simp [IsGap, isSpace]
  have hnone : IsGap [] := List.forall_mem_nil _
  have hchars : briefDocument.toList = _ := String.toList_ofList
  rw [hchars]
  have hattributes : WritesAttributes [("api", "g")]
      ([' '] ++ ("api".toList ++ ([] ++ '=' :: ([] ++ Quote.double.char :: (['g'] ++
        Quote.double.char :: []))))) :=
    .cons (by decide) hgap hnone hnone (.raw (by decide) .nil) (.nil hnone)
  exact .bare (.element hattributes (.reference .lessThan (.empty (.nil hnone) .nil)) hnone .nil)

theorem writesDocument_fullDocument : WritesDocument sampleTree fullDocument.toList := by
  have hgap : IsGap [' '] := by simp [IsGap, isSpace]
  have hnone : IsGap [] := List.forall_mem_nil _
  have hchars : fullDocument.toList = _ := String.toList_ofList
  rw [hchars]
  have hversion : WritesItem "version".toList "1.0".toList
      ([' '] ++ ("version".toList ++ ([] ++ '=' :: ([] ++ Quote.single.char :: ("1.0".toList ++
        [Quote.single.char]))))) :=
    .intro (by decide) hgap hnone hnone
  have hdeclaration : WritesDeclaration {} _ :=
    .intro hversion (.inl ⟨rfl, rfl⟩) (.inl rfl) hnone
  have hcomment : IsComment {} [' ', 't', 'h', 'e', ' ', 's', 'a', 'm', 'e', ' '] :=
    ⟨Text.forall_mem_of_all (by decide), fun _ _ => .inl rfl, by decide⟩
  have hreference : Refers 'g' ['#', '1', '0', '3'] :=
    .decimal (by decide) (Text.forall_mem_of_all (by decide)) (by decide)
  have hattributes : WritesAttributes [("api", "g")]
      ([' '] ++ ("api".toList ++ ([' '] ++ '=' :: ([' '] ++ Quote.single.char ::
        ('&' :: (['#', '1', '0', '3'] ++ ';' :: []) ++ Quote.single.char :: []))))) :=
    .cons (by decide) hgap hgap hgap (.reference hreference .nil) (.nil hnone)
  have hfree : ¬ [']', ']', '>'] <:+: ['<'] := by decide
  have hcontent : Writes {} true 0 ([Tree.char '<'] ++ [.element "command" [] []]) _ :=
    .cdata hfree (.element (.nil hnone) .nil hgap .nil)
  exact .declared hdeclaration (.comment hcomment (.element hattributes hcontent hnone .nil))

/-- Two documents of one registry: both are read as its tree and give the same declarations. -/
theorem sampleTree_briefDocument_fullDocument :
    sampleTree.IsPlain ∧ WritesDocument sampleTree briefDocument.toList ∧
    WritesDocument sampleTree fullDocument.toList ∧
    (∃ root, parse briefDocument = .ok root ∧ root.tree = sampleTree) ∧
    (∃ root, parse fullDocument = .ok root ∧ root.tree = sampleTree) ∧
    (declarations briefDocument "g").mapError Report.code =
      (declarations fullDocument "g").mapError Report.code :=
  ⟨isPlain_sampleTree, writesDocument_briefDocument, writesDocument_fullDocument,
    (parse_and_declarations_of_writesDocument isPlain_sampleTree).1 _ writesDocument_briefDocument,
    (parse_and_declarations_of_writesDocument isPlain_sampleTree).1 _ writesDocument_fullDocument,
    (parse_and_declarations_of_writesDocument isPlain_sampleTree).2 _ _ "g"
      writesDocument_briefDocument writesDocument_fullDocument⟩

end CallBridge.Registry
