import CallBridge.Config.Basic
import CallBridge.Proofs.Json.Grammar
import Mathlib.Data.List.Nodup
import Mathlib.Data.List.Perm.Basic

/-!
# Fields of a configuration as members of an object

The members of a JSON object overwrite a configuration: each gives a value to the field that its
key names.

* `Config.eq_of_value_eq`, `Config.exists_value_eq`: a configuration is a choice of values for its
  fields (`Config.value`);
* `Config.names_and_overwrites_cons_iff`: members overwrite a configuration one by one
  (`Config.Sets`, `Config.Overwrites`);
* `Config.Fits.exists_overwrites`, `Config.Overwrites.unique`: members that fit overwrite a
  configuration in one way, whatever their order;
* `Config.overwrites_members`: all fields of a configuration overwrite any other one.
-/

namespace CallBridge

open Json

namespace Field

/-- The values that a field can have: a text field strings, a list field arrays of strings. -/
def Admits : Field → Value → Prop
  | text _, v => ∃ s, v = .string s
  | list _, v => ∃ ss : List String, v = .array (ss.map .string)

theorem key_injective : Function.Injective Field.key := by
  intro field other hkey
  have hsame := ofKey?_key field
  rw [hkey, ofKey?_key] at hsame
  exact (Option.some.inj hsame).symm

theorem mem_all (field : Field) : field ∈ Field.all :=
  List.mem_of_find?_eq_some (ofKey?_key field)

theorem nodup_all : Field.all.Nodup := by
  decide

end Field

namespace Config

/-- The value of a field. -/
def value (c : Config) : Field → Value
  | .text field => .string (c.text field)
  | .list field => .array ((c.list field).map .string)

/-- The members of an object that states fields of a configuration. -/
def members (c : Config) (fields : List Field) : List (String × Value) :=
  fields.map fun field => (field.key, c.value field)

/-- A configuration gets a value for a field and keeps those of the others. -/
structure Sets (field : Field) (v : Value) (c c' : Config) : Prop where
  given : c'.value field = v
  kept : ∀ other, other ≠ field → c'.value other = c.value other

/-- A configuration gets the values that members of an object give, and keeps those of the fields
that they do not name. -/
structure Overwrites (members : List (String × Value)) (c c' : Config) : Prop where
  given : ∀ (field : Field) (v : Value), (field.key, v) ∈ members → c'.value field = v
  kept : ∀ field : Field, field.key ∉ members.map Prod.fst → c'.value field = c.value field

/-- The keys of members are different, and each is that of a field among given ones. -/
structure Names (free : List Field) (members : List (String × Value)) : Prop where
  distinct : (members.map Prod.fst).Nodup
  known : ∀ member ∈ members, ∃ field ∈ free, field.key = member.1

/-- Members that a configuration can be read from: their keys are different, each is that of a
field, and the field admits the value. -/
structure Fits (members : List (String × Value)) : Prop where
  distinct : (members.map Prod.fst).Nodup
  typed : ∀ member ∈ members, ∃ field : Field, field.key = member.1 ∧ field.Admits member.2

variable {c c' d : Config} {field : Field} {free : List Field} {key : String} {v : Value}
  {members : List (String × Value)}

/-! ## Values of fields -/

theorem text_eq_of_value_eq {field : TextField}
    (h : c.value (.text field) = d.value (.text field)) : c.text field = d.text field :=
  Value.string.inj h

theorem list_eq_of_value_eq {field : ListField}
    (h : c.value (.list field) = d.value (.list field)) : c.list field = d.list field :=
  List.map_injective_iff.mpr (fun _ _ => Value.string.inj) (Value.array.inj h)

/-- A configuration is given by the values of its fields. -/
theorem eq_of_value_eq (h : ∀ field, c.value field = d.value field) : c = d := by
  have htext : ∀ field, c.text field = d.text field := fun field => text_eq_of_value_eq (h _)
  have hlist : ∀ field, c.list field = d.list field := fun field => list_eq_of_value_eq (h _)
  cases c
  cases d
  rw [Config.mk.injEq]
  exact ⟨htext .apiPrefix, htext .wrapperSuffix, hlist .baselineFeatures, hlist .exclusions,
    htext .traceCondition, htext .traceFunction, htext .directCallCounter, htext .failureSentinel,
    htext .setupFunction, htext .tableType, hlist .ignoredSlots⟩

/-- Every choice of values for the fields is that of a configuration. -/
theorem exists_value_eq (values : Field → Value)
    (h : ∀ field : Field, field.Admits (values field)) : ∃ c : Config, ∀ field, c.value field = values field := by
  have htext : ∀ field : TextField, ∃ s, values (.text field) = .string s :=
    fun field => h (.text field)
  have hlist : ∀ field : ListField, ∃ ss : List String,
      values (.list field) = .array (ss.map .string) :=
    fun field => h (.list field)
  choose text htext using htext
  choose list hlist using hlist
  refine ⟨⟨text .apiPrefix, text .wrapperSuffix, list .baselineFeatures, list .exclusions,
    text .traceCondition, text .traceFunction, text .directCallCounter, text .failureSentinel,
    text .setupFunction, text .tableType, list .ignoredSlots⟩, fun field => ?_⟩
  cases field with
  | text field => rw [htext]; cases field <;> rfl
  | list field => rw [hlist]; cases field <;> rfl

theorem admits_value (c : Config) (field : Field) : field.Admits (c.value field) := by
  cases field with
  | text field => exact ⟨_, rfl⟩
  | list field => exact ⟨_, rfl⟩

theorem Sets.unique (h : Sets field v c c') (h' : Sets field v c d) : c' = d := by
  refine eq_of_value_eq fun other => ?_
  by_cases hother : other = field
  · rw [hother, h.given, h'.given]
  · rw [h.kept other hother, h'.kept other hother]

theorem exists_sets (h : field.Admits v) (c : Config) : ∃ c', Sets field v c c' := by
  have hadmits : ∀ other : Field, other.Admits (if other = field then v else c.value other) := by
    intro other
    split
    · rename_i heq
      exact heq ▸ h
    · exact c.admits_value other
  obtain ⟨c', hc'⟩ := exists_value_eq _ hadmits
  exact ⟨c', by rw [hc', if_pos rfl], fun other hother => by rw [hc', if_neg hother]⟩

theorem sets_setText (c : Config) (s : String) (field : TextField) :
    Sets (.text field) (.string s) c (c.setText s field) where
  given := by rw [value, text_setText, if_pos rfl]
  kept other hother := by
    cases other with
    | text other =>
      rw [value, text_setText, if_neg fun heq => hother (congrArg Field.text heq), value]
    | list other => cases field <;> rfl

theorem sets_setList (c : Config) (ss : List String) (field : ListField) :
    Sets (.list field) (.array (ss.map .string)) c (c.setList ss field) where
  given := by rw [value, list_setList, if_pos rfl]
  kept other hother := by
    cases other with
    | text other => cases field <;> rfl
    | list other =>
      rw [value, list_setList, if_neg fun heq => hother (congrArg Field.list heq), value]

/-! ## Members one by one -/

theorem names_nil (free : List Field) : Names free [] :=
  ⟨List.nodup_nil, List.forall_mem_nil _⟩

theorem overwrites_nil_iff : Overwrites [] c c' ↔ c' = c := by
  constructor
  · intro h
    exact eq_of_value_eq fun field => h.kept field List.not_mem_nil
  · rintro rfl
    exact ⟨fun _ _ hmem => absurd hmem List.not_mem_nil, fun _ _ => rfl⟩

/-- The first member sets its field, and the others are read into the rest. -/
theorem names_and_overwrites_cons_iff (hfree : free.Nodup) :
    Names free ((key, v) :: members) ∧ Overwrites ((key, v) :: members) c c' ↔
      ∃ field ∈ free, field.key = key ∧ ∃ between, Sets field v c between ∧
        Names (free.erase field) members ∧ Overwrites members between c' := by
  constructor
  · rintro ⟨hnames, hover⟩
    obtain ⟨field, hfield, rfl⟩ := hnames.known _ List.mem_cons_self
    obtain ⟨hnew, hdistinct⟩ := List.nodup_cons.mp hnames.distinct
    have hgiven : c'.value field = v := hover.given field v List.mem_cons_self
    -- The configuration after the first member; the other members do not touch its field.
    obtain ⟨between, hsets⟩ := exists_sets (hgiven ▸ c'.admits_value field) c
    refine ⟨field, hfield, rfl, between, hsets, ⟨hdistinct, ?_⟩, ⟨?_, ?_⟩⟩
    · intro member hmember
      obtain ⟨other, hother, hkey⟩ := hnames.known member (List.mem_cons_of_mem _ hmember)
      have hne : other ≠ field := by
        rintro rfl
        exact hnew (List.mem_map.mpr ⟨member, hmember, hkey.symm⟩)
      exact ⟨other, (List.mem_erase_of_ne hne).mpr hother, hkey⟩
    · intro other w hmem
      exact hover.given other w (List.mem_cons_of_mem _ hmem)
    · intro other hother
      by_cases hsame : other = field
      · rw [hsame, hgiven, hsets.given]
      · have hkey : other.key ≠ field.key := fun heq => hsame (Field.key_injective heq)
        rw [hsets.kept other hsame]
        exact hover.kept other (List.mem_cons.not.mpr (not_or.mpr ⟨hkey, hother⟩))
  · rintro ⟨field, hfield, rfl, between, hsets, hnames, hover⟩
    -- A key that came again would be that of a field that is no longer free.
    have hnew : field.key ∉ members.map Prod.fst := by
      intro hmem
      obtain ⟨member, hmember, hkey⟩ := List.mem_map.mp hmem
      obtain ⟨other, hother, hkey'⟩ := hnames.known member hmember
      rw [Field.key_injective (hkey'.trans hkey)] at hother
      exact hfree.not_mem_erase hother
    refine ⟨⟨List.nodup_cons.mpr ⟨hnew, hnames.distinct⟩, ?_⟩, ⟨?_, ?_⟩⟩
    · intro member hmember
      rcases List.mem_cons.mp hmember with rfl | hmember
      · exact ⟨field, hfield, rfl⟩
      · obtain ⟨other, hother, hkey⟩ := hnames.known member hmember
        exact ⟨other, List.mem_of_mem_erase hother, hkey⟩
    · intro other w hmem
      rcases List.mem_cons.mp hmem with heq | hmem
      · obtain ⟨hkey, rfl⟩ := Prod.mk.inj heq
        rw [Field.key_injective hkey, hover.kept field hnew, hsets.given]
      · exact hover.given other w hmem
    · intro other hother
      obtain ⟨hkey, hother⟩ := not_or.mp (List.mem_cons.not.mp hother)
      have hne : other ≠ field := fun heq => hkey (congrArg Field.key heq)
      rw [hover.kept other hother, hsets.kept other hne]

/-! ## Members that fit -/

theorem fits_and_overwrites_iff :
    Fits members ∧ Overwrites members c c' ↔ Names Field.all members ∧ Overwrites members c c' := by
  refine and_congr_left fun hover => ⟨fun h => ⟨h.distinct, ?_⟩, fun h => ⟨h.distinct, ?_⟩⟩
  · intro member hmember
    obtain ⟨field, hkey, -⟩ := h.typed member hmember
    exact ⟨field, field.mem_all, hkey⟩
  · intro member hmember
    obtain ⟨field, -, hkey⟩ := h.known member hmember
    have hgiven : c'.value field = member.2 := hover.given field member.2 (hkey ▸ hmember)
    exact ⟨field, hkey, hgiven ▸ c'.admits_value field⟩

/-- Members overwrite a configuration in one way. -/
theorem Overwrites.unique (h : Overwrites members c c') (h' : Overwrites members c d) : c' = d := by
  refine eq_of_value_eq fun field => ?_
  by_cases hkey : field.key ∈ members.map Prod.fst
  · obtain ⟨member, hmember, hfst⟩ := List.mem_map.mp hkey
    have hgiven : (field.key, member.2) ∈ members := hfst ▸ hmember
    rw [h.given field member.2 hgiven, h'.given field member.2 hgiven]
  · rw [h.kept field hkey, h'.kept field hkey]

/-- Members that fit overwrite every configuration. -/
theorem Fits.exists_overwrites (h : Fits members) (c : Config) : ∃ c', Overwrites members c c' := by
  have hvalue : ∀ field : Field, ∃ v, field.Admits v ∧ (∀ w, (field.key, w) ∈ members → v = w) ∧
      (field.key ∉ members.map Prod.fst → v = c.value field) := by
    intro field
    by_cases hkey : field.key ∈ members.map Prod.fst
    · obtain ⟨member, hmember, hfst⟩ := List.mem_map.mp hkey
      obtain ⟨other, hother, hadmits⟩ := h.typed member hmember
      obtain rfl := Field.key_injective (hother.trans hfst)
      refine ⟨member.2, hadmits, fun w hw => ?_, fun hnot => absurd hkey hnot⟩
      have hsame : member = (other.key, w) := List.inj_on_of_nodup_map h.distinct hmember hw hfst
      rw [hsame]
    · refine ⟨c.value field, c.admits_value field, fun w hw => ?_, fun _ => rfl⟩
      exact absurd (List.mem_map.mpr ⟨_, hw, rfl⟩) hkey
  choose values hadmits hgiven hkept using hvalue
  obtain ⟨c', hc'⟩ := exists_value_eq values hadmits
  refine ⟨c', fun field v hmem => ?_, fun field hkey => ?_⟩
  · rw [hc', hgiven field v hmem]
  · rw [hc', hkept field hkey]

theorem Overwrites.of_perm {others : List (String × Value)} (h : Overwrites members c c')
    (hperm : members.Perm others) : Overwrites others c c' where
  given field v hmem := h.given field v (hperm.mem_iff.mpr hmem)
  kept field hkey := h.kept field fun hmem => hkey ((hperm.map Prod.fst).mem_iff.mp hmem)

theorem Fits.of_perm {others : List (String × Value)} (h : Fits members)
    (hperm : members.Perm others) : Fits others where
  distinct := (hperm.map Prod.fst).nodup_iff.mp h.distinct
  typed member hmember := h.typed member (hperm.mem_iff.mpr hmember)

theorem fits_members {fields : List Field} (hfields : fields.Nodup) (c : Config) :
    Fits (c.members fields) where
  distinct := by
    have hkeys : (c.members fields).map Prod.fst = fields.map Field.key := by
      rw [members, List.map_map]
      rfl
    rw [hkeys]
    exact hfields.map Field.key_injective
  typed := by
    intro member hmember
    obtain ⟨field, -, rfl⟩ := List.mem_map.mp hmember
    exact ⟨field, rfl, c.admits_value field⟩

/-- Nothing is left of a configuration that all fields of another one overwrite. -/
theorem overwrites_members {fields : List Field} (hfields : fields.Perm Field.all) (c d : Config) :
    Overwrites (c.members fields) d c where
  given := by
    intro field v hmember
    obtain ⟨other, -, heq⟩ := List.mem_map.mp hmember
    obtain ⟨hkey, rfl⟩ := Prod.mk.inj heq
    rw [Field.key_injective hkey]
  kept := by
    intro field hkey
    have hmember : (field.key, c.value field) ∈ c.members fields :=
      List.mem_map.mpr ⟨field, hfields.mem_iff.mpr field.mem_all, rfl⟩
    exact absurd (List.mem_map.mpr ⟨_, hmember, rfl⟩) hkey

end Config

end CallBridge
