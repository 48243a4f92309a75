import CallBridge.Proofs.Outcome
import CallBridge.Registry
import Mathlib.Data.List.Forall2

/-!
# What commands define

A command defines a signature if it has a prototype and the prototype and all parameters
have a `name` child.  The type is the text before that child.  Of several definitions of
one name the last counts.

`GivesName`, `GivesSignature` and `LastDefinition` say so of the elements alone, without
a word on how they are read.

* `typedName_eq_ok_iff`, `signature_eq_ok_iff` and `signatures_eq_ok_iff`: reading yields
  just what the elements give;
* `exists_givesSignature_iff`: when a command defines a signature at all;
* `lookup?_eq_some_iff`: looking up finds the last definition.
-/

namespace CallBridge.Registry

open Markup

variable {α β : Type}

/-! ## Lists side by side -/

theorem exists_of_forall₂_append {R : α → β → Prop} {xs ys : List α} {zs : List β}
    (h : List.Forall₂ R (xs ++ ys) zs) :
    ∃ first rest, List.Forall₂ R xs first ∧ List.Forall₂ R ys rest ∧ zs = first ++ rest := by
  induction xs generalizing zs with
  | nil => exact ⟨[], zs, .nil, h, rfl⟩
  | cons x xs ih =>
    obtain ⟨z, more, hz, hmore, rfl⟩ := List.forall₂_cons_left_iff.mp h
    obtain ⟨first, rest, hfirst, hrest, rfl⟩ := ih hmore
    exact ⟨z :: first, rest, .cons hz hfirst, hrest, rfl⟩

theorem exists_of_append_cons_forall₂ {R : α → β → Prop} {before after : List α} {x : α}
    {ys : List β} (h : List.Forall₂ R (before ++ x :: after) ys) :
    ∃ first y rest, ys = first ++ y :: rest ∧ R x y ∧ List.Forall₂ R after rest := by
  obtain ⟨first, more, -, hmore, rfl⟩ := exists_of_forall₂_append h
  obtain ⟨y, rest, hy, hrest, rfl⟩ := List.forall₂_cons_left_iff.mp hmore
  exact ⟨first, y, rest, rfl, hy, hrest⟩

theorem exists_of_forall₂_append_cons {R : α → β → Prop} {xs : List α} {before after : List β}
    {y : β} (h : List.Forall₂ R xs (before ++ y :: after)) :
    ∃ first x rest, xs = first ++ x :: rest ∧ R x y ∧ List.Forall₂ R rest after := by
  obtain ⟨first, x, rest, rfl, hx, hrest⟩ := exists_of_append_cons_forall₂ h.flip
  exact ⟨first, x, rest, rfl, hx, hrest.flip⟩

theorem exists_forall₂_iff {R : α → β → Prop} {xs : List α} :
    (∃ ys, List.Forall₂ R xs ys) ↔ ∀ x ∈ xs, ∃ y, R x y := by
  induction xs with
  | nil => exact iff_of_true ⟨[], .nil⟩ (List.forall_mem_nil _)
  | cons x xs ih =>
    rw [List.forall_mem_cons, ← ih]
    constructor
    · rintro ⟨ys, h⟩
      obtain ⟨y, rest, hy, hrest, -⟩ := List.forall₂_cons_left_iff.mp h
      exact ⟨⟨y, hy⟩, rest, hrest⟩
    · rintro ⟨⟨y, hy⟩, rest, hrest⟩
      exact ⟨y :: rest, .cons hy hrest⟩

/-! ## Names and types -/

/-- An element has a child `name` for the first time behind the children `before`. -/
def NamedBehind (e : Element) (before : List Node) (inner : List Node) : Prop :=
  ∃ attributes line after,
    e.children = before ++ Node.element "name" attributes line inner :: after ∧
    ∀ child ∈ before, ∀ other, child.element? = some other → other.name ≠ "name"

/-- An element gives a name, the text of its first child `name`, and a type, all text before
that child. -/
def GivesName (e : Element) (type name : String) : Prop :=
  ∃ before inner, NamedBehind e before inner ∧
    type = Node.textOfAll before ∧ name = Node.textOfAll inner

theorem typedName?_eq_some_iff {nodes : List Node} {type name : String} :
    typedName? nodes = some (type, name) ↔
      ∃ before attributes line inner after,
        nodes = before ++ Node.element "name" attributes line inner :: after ∧
        (∀ child ∈ before, ∀ other, child.element? = some other → other.name ≠ "name") ∧
        type = Node.textOfAll before ∧ name = Node.textOfAll inner := by
  induction nodes generalizing type with
  | nil => simp [typedName?]
  | cons node rest ih =>
    have hskip (hnode : ∀ other, node.element? = some other → other.name ≠ "name")
        (hread : typedName? (node :: rest) =
          (typedName? rest).map fun found => (node.allText ++ found.1, found.2)) :
        typedName? (node :: rest) = some (type, name) ↔
          ∃ before attributes line inner after,
            node :: rest = before ++ Node.element "name" attributes line inner :: after ∧
            (∀ child ∈ before, ∀ other, child.element? = some other → other.name ≠ "name") ∧
            type = Node.textOfAll before ∧ name = Node.textOfAll inner := by
      rw [hread, Option.map_eq_some_iff]
      constructor
      · rintro ⟨⟨inner, name'⟩, hfound, hpair⟩
        obtain ⟨rfl, rfl⟩ := Prod.mk.inj hpair
        obtain ⟨before, attributes, line, inner', after, rfl, hbefore, rfl, rfl⟩ := ih.mp hfound
        exact ⟨node :: before, attributes, line, inner', after, rfl,
          List.forall_mem_cons.mpr ⟨hnode, hbefore⟩, by rw [Node.textOfAll], rfl⟩
      · rintro ⟨before, attributes, line, inner, after, hsplit, hbefore, rfl, rfl⟩
        cases before with
        | nil =>
          obtain ⟨rfl, -⟩ := List.cons.inj hsplit
          exact absurd rfl (hnode _ rfl)
        | cons first before =>
          obtain ⟨rfl, rfl⟩ := List.cons.inj hsplit
          refine ⟨(Node.textOfAll before, Node.textOfAll inner), ih.mpr ?_, ?_⟩
          · exact ⟨before, attributes, line, inner, after, rfl,
              (List.forall_mem_cons.mp hbefore).2, rfl, rfl⟩
          · rw [Node.textOfAll]
    cases node with
    | text content => exact hskip nofun rfl
    | element tag attributes line children =>
      by_cases htag : tag = "name"
      · subst htag
        rw [typedName?, if_pos rfl, Option.some.injEq, Prod.mk.injEq]
        constructor
        · rintro ⟨rfl, rfl⟩
          exact ⟨[], attributes, line, children, rest, rfl, List.forall_mem_nil _, rfl, rfl⟩
        · rintro ⟨before, attributes', line', inner, after, hsplit, hbefore, rfl, rfl⟩
          cases before with
          | nil =>
            obtain ⟨hnode, -⟩ := List.cons.inj hsplit
            injection hnode with _ _ _ hchildren
            rw [hchildren]
            exact ⟨rfl, rfl⟩
          | cons first before =>
            obtain ⟨rfl, -⟩ := List.cons.inj hsplit
            exact absurd rfl ((List.forall_mem_cons.mp hbefore).1 _ rfl)
      · refine hskip ?_ (if_neg htag)
        rintro other hother
        obtain rfl := Option.some.inj hother
        exact htag

/-- Reading a type and a name yields what the element gives. -/
theorem typedName_eq_ok_iff {e : Element} {type name : String} :
    typedName e = .ok (type, name) ↔ GivesName e type name := by
  have hread : typedName e = .ok (type, name) ↔ typedName? e.children = some (type, name) := by
    rw [typedName]
    cases typedName? e.children with
    | none => exact iff_of_false nofun nofun
    | some found => rw [Except.ok.injEq, Option.some.injEq]
  rw [hread, typedName?_eq_some_iff]
  constructor
  · rintro ⟨before, attributes, line, inner, after, hsplit, hbefore, htype, hname⟩
    exact ⟨before, inner, ⟨attributes, line, after, hsplit, hbefore⟩, htype, hname⟩
  · rintro ⟨before, inner, ⟨attributes, line, after, hsplit, hbefore⟩, htype, hname⟩
    exact ⟨before, attributes, line, inner, after, hsplit, hbefore, htype, hname⟩

/-- An element gives a name if it has a child `name`. -/
theorem exists_givesName_iff {e : Element} :
    (∃ given : String × String, GivesName e given.1 given.2) ↔
      (e.child? "name").isSome = true := by
  have hread (nodes : List Node) : (typedName? nodes).isSome =
      ((nodes.filterMap Node.element?).find? (·.name == "name")).isSome := by
    induction nodes with
    | nil => rfl
    | cons node rest ih =>
      cases node with
      | text content =>
        rw [typedName?, Option.isSome_map, ih]
        rfl
      | element tag attributes line children =>
        by_cases htag : tag = "name"
        · simp [typedName?, Node.element?, htag]
        · simpa [typedName?, Node.element?, htag] using ih
  rw [Element.child?, Element.elements, ← hread, Option.isSome_iff_exists]
  constructor
  · rintro ⟨given, hgiven⟩
    rw [← typedName_eq_ok_iff, typedName] at hgiven
    cases hfound : typedName? e.children with
    | none =>
      rw [hfound] at hgiven
      cases hgiven
    | some found => exact ⟨found, rfl⟩
  · rintro ⟨found, hfound⟩
    refine ⟨found, typedName_eq_ok_iff.mp ?_⟩
    rw [typedName, hfound]

/-! ## Signatures -/

/-- An element gives a parameter: a type in normal form and a name without blanks around
it. -/
def GivesParameter (e : Element) (p : Parameter) : Prop :=
  ∃ type name, GivesName e type name ∧ p = Parameter.normal type name

/-- A command gives a signature: its prototype gives the name and the return type, and each
element `param` a parameter. -/
def GivesSignature (command : Element) (s : Signature) : Prop :=
  ∃ prototype returnType name ps, command.child? "proto" = some prototype ∧
    GivesName prototype returnType name ∧
    List.Forall₂ GivesParameter (command.childrenNamed "param") ps ∧
    s = Signature.normal name returnType (ParamList.ofList ps)

/-- The last of the commands that give a signature of this name gives this one. -/
def LastDefinition (commands : List Element) (name : String) (s : Signature) : Prop :=
  ∃ before command after, commands = before ++ command :: after ∧
    GivesSignature command s ∧ s.name = name ∧
    ∀ other ∈ after, ∀ t, GivesSignature other t → t.name ≠ name

theorem parameters_eq_ok_iff {es : List Element} {ps : List Parameter} :
    parameters es = .ok ps ↔ List.Forall₂ GivesParameter es ps := by
  induction es generalizing ps with
  | nil => simp [parameters, eq_comm]
  | cons e es ih =>
    rw [List.forall₂_cons_left_iff, parameters, bind_eq_ok_iff]
    simp only [bind_eq_ok_iff, Except.ok.injEq, ih, Prod.exists, typedName_eq_ok_iff]
    constructor
    · rintro ⟨type, name, hgiven, rest, hrest, rfl⟩
      exact ⟨_, rest, ⟨type, name, hgiven, rfl⟩, hrest, rfl⟩
    · rintro ⟨p, rest, ⟨type, name, hgiven, rfl⟩, hrest, rfl⟩
      exact ⟨type, name, hgiven, rest, hrest, rfl⟩

/-- Reading a command yields the signature that it gives. -/
theorem signature_eq_ok_iff {command : Element} {s : Signature} :
    signature command = .ok s ↔ GivesSignature command s := by
  rw [signature, GivesSignature]
  cases hproto : command.child? "proto" with
  | none => exact iff_of_false nofun (by rintro ⟨_, _, _, _, h, -⟩; cases h)
  | some prototype =>
    simp only [bind_eq_ok_iff, Except.ok.injEq, Prod.exists, typedName_eq_ok_iff,
      parameters_eq_ok_iff]
    constructor
    · rintro ⟨returnType, name, hgiven, ps, hps, rfl⟩
      exact ⟨prototype, returnType, name, ps, rfl, hgiven, hps, rfl⟩
    · rintro ⟨_, returnType, name, ps, h, hgiven, hps, rfl⟩
      obtain rfl := Option.some.inj h
      exact ⟨returnType, name, hgiven, ps, hps, rfl⟩

/-- Reading commands yields the signatures that they give, in order. -/
theorem signatures_eq_ok_iff {commands : List Element} {table : List Signature} :
    signatures commands = .ok table ↔ List.Forall₂ GivesSignature commands table := by
  induction commands generalizing table with
  | nil => simp [signatures, eq_comm]
  | cons command commands ih =>
    rw [List.forall₂_cons_left_iff, signatures]
    simp only [bind_eq_ok_iff, Except.ok.injEq, ih, signature_eq_ok_iff]
    constructor
    · rintro ⟨s, hgiven, rest, hrest, rfl⟩
      exact ⟨s, rest, hgiven, hrest, rfl⟩
    · rintro ⟨s, rest, hgiven, hrest, rfl⟩
      exact ⟨s, hgiven, rest, hrest, rfl⟩

/-- A command has a prototype, and the prototype and all parameters have a child `name`. -/
structure IsComplete (command : Element) : Prop where
  prototype : ∃ prototype, command.child? "proto" = some prototype ∧
    (prototype.child? "name").isSome = true
  parameters : ∀ param ∈ command.childrenNamed "param", (param.child? "name").isSome = true

/-- A command gives a signature if it is complete. -/
theorem exists_givesSignature_iff {command : Element} :
    (∃ s, GivesSignature command s) ↔ IsComplete command := by
  have hparams : (∃ ps, List.Forall₂ GivesParameter (command.childrenNamed "param") ps) ↔
      ∀ param ∈ command.childrenNamed "param", (param.child? "name").isSome = true := by
    rw [exists_forall₂_iff]
    refine forall₂_congr fun param _ => ?_
    rw [← exists_givesName_iff]
    constructor
    · rintro ⟨p, type, name, hgiven, -⟩
      exact ⟨(type, name), hgiven⟩
    · rintro ⟨given, hgiven⟩
      exact ⟨_, given.1, given.2, hgiven, rfl⟩
  constructor
  · rintro ⟨s, prototype, returnType, name, ps, hproto, hgiven, hps, -⟩
    exact ⟨⟨prototype, hproto, exists_givesName_iff.mp ⟨(returnType, name), hgiven⟩⟩,
      hparams.mp ⟨ps, hps⟩⟩
  · rintro ⟨⟨prototype, hproto, hname⟩, hall⟩
    obtain ⟨given, hgiven⟩ := exists_givesName_iff.mpr hname
    obtain ⟨ps, hps⟩ := hparams.mpr hall
    exact ⟨_, prototype, given.1, given.2, ps, hproto, hgiven, hps, rfl⟩

theorem givesSignature_unique {command : Element} {s t : Signature}
    (hs : GivesSignature command s) (ht : GivesSignature command t) : s = t := by
  rw [← signature_eq_ok_iff] at hs ht
  exact Except.ok.inj (hs.symm.trans ht)

/-- Looking up a name finds its last definition. -/
theorem lookup?_eq_some_iff {commands : List Element} {table : List Signature}
    (hread : List.Forall₂ GivesSignature commands table) {name : String} {s : Signature} :
    lookup? table name = some s ↔ LastDefinition commands name s := by
  rw [lookup?, List.find?_eq_some_iff_append, beq_iff_eq]
  constructor
  · rintro ⟨hname, later, earlier, hsplit, hlater⟩
    have htable : table = earlier.reverse ++ s :: later.reverse := by
      simpa using congrArg List.reverse hsplit
    rw [htable] at hread
    obtain ⟨before, command, after, rfl, hgiven, hafter⟩ := exists_of_forall₂_append_cons hread
    refine ⟨before, command, after, rfl, hgiven, hname, ?_⟩
    intro other hother t ht hsame
    obtain ⟨first, rest, rfl⟩ := List.append_of_mem hother
    obtain ⟨first', u, rest', hrest, hu, -⟩ := exists_of_append_cons_forall₂ hafter
    have hmem : u ∈ later := by
      rw [← List.mem_reverse, hrest]
      exact List.mem_append_right _ List.mem_cons_self
    have hne := hlater u hmem
    rw [givesSignature_unique hu ht, hsame] at hne
    simp at hne
  · rintro ⟨before, command, after, rfl, hgiven, hname, hafter⟩
    obtain ⟨earlier, t, later, rfl, ht, hlater⟩ := exists_of_append_cons_forall₂ hread
    obtain rfl := givesSignature_unique hgiven ht
    refine ⟨hname, later.reverse, earlier.reverse, by simp, ?_⟩
    intro u hu
    obtain ⟨first, rest, hsplit⟩ := List.append_of_mem (List.mem_reverse.mp hu)
    rw [hsplit] at hlater
    obtain ⟨first', other, rest', rfl, hother, -⟩ := exists_of_forall₂_append_cons hlater
    have hne := hafter other (List.mem_append_right _ List.mem_cons_self) u hother
    simpa using hne

end CallBridge.Registry
