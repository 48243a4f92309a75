import CallBridge.Failure
import CallBridge.Proofs.Config.Fields
import CallBridge.Proofs.Json.Scanning

/-!
# Configurations written as JSON objects

A JSON object is read as a configuration if its keys are those of different fields and its values
fit them; the fields that it leaves out have their defaults.

* `Config.readField_eq_ok_iff`: what reading one value does to a configuration;
* `Config.readMembers_eq_ok_iff`: what reading the members of an object does;
* `Config.parse_of_writesText`: what becomes of the text of an object, however it is written.
-/

namespace CallBridge.Config

open Json

variable {c c' : Config} {field : Field} {free : List Field} {key : String} {v : Value}
  {members : List (String × Value)} {cs gap rest tail : List Char}

/-! ## Reading one value -/

theorem readField_text_eq_ok_iff {field : TextField} :
    c.readField (.text field) cs = .ok (c', tail) ↔
      ∃ s, readString cs = .ok (s, tail) ∧ c.setText s field = c' := by
  unfold readField
  cases readString cs with
  | error problem => simp
  | ok pair => simp [and_comm, Prod.ext_iff, and_assoc]

theorem readField_list_eq_ok_iff {field : ListField} :
    c.readField (.list field) cs = .ok (c', tail) ↔
      ∃ ss, readStrings cs = .ok (ss, tail) ∧ c.setList ss field = c' := by
  unfold readField
  cases readStrings cs with
  | error problem => simp
  | ok pair => simp [and_comm, Prod.ext_iff, and_assoc]

/-- A value is read into a field if the field admits it. -/
theorem readField_eq_ok_iff (hgap : IsGap gap) (h : Writes v cs) :
    c.readField field (gap ++ (cs ++ rest)) = .ok (c', tail) ↔ Sets field v c c' ∧ tail = rest := by
  cases field with
  | text field =>
    simp only [readField_text_eq_ok_iff, readString_eq_ok_iff hgap h]
    constructor
    · rintro ⟨s, ⟨rfl, htail⟩, rfl⟩
      exact ⟨sets_setText c s field, htail⟩
    · rintro ⟨hsets, htail⟩
      have hgiven : v = .string (c'.text field) := hsets.given.symm
      subst hgiven
      exact ⟨c'.text field, ⟨rfl, htail⟩, (sets_setText c _ field).unique hsets⟩
  | list field =>
    simp only [readField_list_eq_ok_iff, readStrings_eq_ok_iff hgap h]
    constructor
    · rintro ⟨ss, ⟨rfl, htail⟩, rfl⟩
      exact ⟨sets_setList c ss field, htail⟩
    · rintro ⟨hsets, htail⟩
      have hgiven : v = .array ((c'.list field).map .string) := hsets.given.symm
      subst hgiven
      exact ⟨c'.list field, ⟨rfl, htail⟩, (sets_setList c _ field).unique hsets⟩

/-! ## Reading members -/

theorem readMembers_eq (c : Config) (first : Bool) (free : List Field) (cs : List Char) :
    c.readMembers first free cs = (nextKey first cs >>= fun
      | .inr rest => .ok (c, rest)
      | .inl cs => scanString cs >>= fun (key, rest) =>
        match free.find? (·.key == String.ofList key) with
        | none => .error .misfit
        | some field => readColon rest >>= fun rest =>
          c.readField field rest >>= fun (c, rest) =>
            c.readMembers false (free.erase field) rest) := by
  rw [readMembers]
  cases nextKey first cs with
  | error problem => rfl
  | ok next =>
    cases next with
    | inr rest => rfl
    | inl cs =>
      simp only [ok_bind]
      cases scanString cs with
      | error problem => rfl
      | ok pair =>
        obtain ⟨key, rest⟩ := pair
        simp only [ok_bind]
        split
        · rename_i hfind
          rw [hfind]
        · rename_i field hfind
          rw [hfind]
          cases readColon rest with
          | error problem => rfl
          | ok rest =>
            simp only [ok_bind]
            cases c.readField field rest with
            | error problem => rfl
            | ok pair => rfl

theorem readMembers_close (hgap : IsGap gap) (c : Config) (first : Bool) (free : List Field) :
    c.readMembers first free (gap ++ '\x7d' :: rest) = .ok (c, rest) := by
  rw [readMembers_eq, nextKey_close hgap]
  rfl

/-- A key is looked up among the fields that are still free. -/
theorem find?_key_eq_some_iff :
    free.find? (·.key == key) = some field ↔ field ∈ free ∧ field.key = key := by
  constructor
  · intro hfind
    exact ⟨List.mem_of_find?_eq_some hfind, by simpa using List.find?_some hfind⟩
  · rintro ⟨hmem, rfl⟩
    cases hfind : free.find? (·.key == field.key) with
    | none => exact absurd (List.find?_eq_none.mp hfind field hmem) (by simp)
    | some other =>
      have hkey : other.key = field.key := by simpa using List.find?_some hfind
      rw [Field.key_injective hkey]

/-- A member is read if it gives a free field a value that the field admits. -/
theorem readMembers_separated {member : String × Value} (h : WritesMember member cs) :
    ∃ after, IsGap after ∧ ∀ (c c' : Config) (first : Bool) (free : List Field)
      (gap more tail : List Char), IsGap gap →
      (c.readMembers first free (gap ++ separated first (cs ++ more)) = .ok (c', tail) ↔
        ∃ field ∈ free, field.key = member.1 ∧ ∃ between, Sets field member.2 c between ∧
          between.readMembers false (free.erase field) (after ++ more) = .ok (c', tail)) := by
  obtain ⟨hbefore, ⟨hkey⟩, hcolon, ⟨hspace, hvalue, hafter⟩⟩ := h
  rename_i key v before beforeColon ks beforeValue vs after
  refine ⟨after, hafter, fun c c' first free gap more tail hgap => ?_⟩
  -- Once the key is read, all depends on the field that it names.
  have hread : c.readMembers first free (gap ++ separated first
        (before ++ ('"' :: (ks ++ ['"']) ++ (beforeColon ++ ':' :: (beforeValue ++ (vs ++ after))))
          ++ more)) =
      (match free.find? (·.key == key) with
        | none => .error .misfit
        | some field =>
          c.readField field (beforeValue ++ (vs ++ (after ++ more))) >>= fun (c, rest) =>
            c.readMembers false (free.erase field) rest) := by
    have hscan := scanString_of_spellsChars hkey
      (beforeColon ++ ':' :: (beforeValue ++ (vs ++ (after ++ more))))
    simp only [List.append_assoc, List.cons_append, List.nil_append]
    rw [readMembers_eq, nextKey_separated hgap hbefore]
    simp only [ok_bind, hscan, String.ofList_toList, readColon_gap hcolon]
  rw [hread]
  cases hfind : free.find? (·.key == key) with
  | none =>
    refine iff_of_false nofun ?_
    rintro ⟨field, hfield, hkey, -⟩
    rw [find?_key_eq_some_iff.mpr ⟨hfield, hkey⟩] at hfind
    contradiction
  | some field =>
    obtain ⟨hfield, rfl⟩ := find?_key_eq_some_iff.mp hfind
    simp only [bind_eq_ok_iff]
    constructor
    · rintro ⟨⟨between, behind⟩, hvalue', hmore⟩
      obtain ⟨hsets, rfl⟩ := (readField_eq_ok_iff hspace hvalue).mp hvalue'
      exact ⟨field, hfield, rfl, between, hsets, hmore⟩
    · rintro ⟨other, -, hother, between, hsets, hmore⟩
      rw [Field.key_injective hother] at hmore hsets
      exact ⟨(between, _), (readField_eq_ok_iff hspace hvalue).mpr ⟨hsets, rfl⟩, hmore⟩

/-- A member and the rest of an object are read if both are. -/
theorem readMembers_cons_eq_ok_iff {more : List Char} (h : WritesMember (key, v) cs)
    (hgap : IsGap gap) (hfree : free.Nodup) (first : Bool)
    (hmore : ∀ field between after, IsGap after →
      (between.readMembers false (free.erase field) (after ++ more) = .ok (c', tail) ↔
        (Names (free.erase field) members ∧ Overwrites members between c') ∧ tail = rest)) :
    c.readMembers first free (gap ++ separated first (cs ++ more)) = .ok (c', tail) ↔
      (Names free ((key, v) :: members) ∧ Overwrites ((key, v) :: members) c c') ∧ tail = rest := by
  obtain ⟨after, hafter, hmember⟩ := readMembers_separated h
  rw [hmember c c' first free gap more tail hgap, names_and_overwrites_cons_iff hfree]
  constructor
  · rintro ⟨field, hfield, hkey, between, hsets, hread⟩
    obtain ⟨hrest, htail⟩ := (hmore field between after hafter).mp hread
    exact ⟨⟨field, hfield, hkey, between, hsets, hrest⟩, htail⟩
  · rintro ⟨⟨field, hfield, hkey, between, hsets, hrest⟩, htail⟩
    have hread := (hmore field between after hafter).mpr ⟨hrest, htail⟩
    exact ⟨field, hfield, hkey, between, hsets, hread⟩

/-- The members of an object are read if they name free fields that admit their values. -/
theorem readMembers_eq_ok_iff (h : WritesMembers members cs) (hgap : IsGap gap)
    (hfree : free.Nodup) (first : Bool) :
    c.readMembers first free (gap ++ separated first (cs ++ '\x7d' :: rest)) = .ok (c', tail) ↔
      (Names free members ∧ Overwrites members c c') ∧ tail = rest := by
  induction members generalizing c cs gap first free with
  | nil => cases h
  | cons member members ih =>
    cases h with
    | last h =>
      refine readMembers_cons_eq_ok_iff h hgap hfree first fun field between after hafter => ?_
      rw [readMembers_close hafter, overwrites_nil_iff, and_iff_right (names_nil _)]
      simp [eq_comm]
    | @cons _ _ ms more h hrest =>
      rw [List.append_assoc]
      exact readMembers_cons_eq_ok_iff h hgap hfree first fun field between after hafter =>
        ih hrest hafter (hfree.erase field) false

/-! ## Reading a text -/

theorem readConfig_eq_ok_iff (hgap : IsGap gap) (h : Writes (.object members) cs) :
    readConfig (gap ++ (cs ++ rest)) = .ok (c, tail) ↔
      (Names Field.all members ∧ Overwrites members {} c) ∧ tail = rest := by
  rw [readConfig]
  cases h with
  | emptyObject hinner =>
    rw [List.cons_append, skipSpace_gap_cons hgap (by decide), List.append_assoc,
      List.singleton_append]
    show readMembers _ _ _ _ = _ ↔ _
    rw [readMembers_close hinner, overwrites_nil_iff, and_iff_right (names_nil _)]
    simp [eq_comm]
  | object hmembers =>
    rw [List.cons_append, skipSpace_gap_cons hgap (by decide), List.append_assoc,
      List.singleton_append]
    exact readMembers_eq_ok_iff hmembers (List.forall_mem_nil _) Field.nodup_all true

/-- The text of an object is read if its members name fields that admit their values. -/
theorem ofJson_eq_ok_iff {text : String} (h : WritesText (.object members) text) :
    ofJson text = .ok c ↔ Names Field.all members ∧ Overwrites members {} c := by
  unfold ofJson
  unfold WritesText at h
  generalize text.toList = written at h
  obtain ⟨hbefore, hvalue, hafter⟩ := h
  rename_i before cs after
  have hspace : skipSpace after = [] := by
    have hskip := skipSpace_append hafter []
    rwa [List.append_nil] at hskip
  -- What stands behind the object is white space, so nothing is left over.
  constructor
  · intro hok
    cases hconfig : readConfig (before ++ (cs ++ after)) with
    | error problem =>
      rw [hconfig] at hok
      contradiction
    | ok pair =>
      obtain ⟨d, tail⟩ := pair
      obtain ⟨hover, rfl⟩ := (readConfig_eq_ok_iff hbefore hvalue).mp hconfig
      rw [hconfig] at hok
      simp only [hspace, List.isEmpty_nil, if_true, Except.ok.injEq] at hok
      exact hok ▸ hover
  · intro hover
    rw [(readConfig_eq_ok_iff hbefore hvalue).mpr ⟨hover, rfl⟩]
    simp [hspace]

theorem parse_eq_ok_iff {text : String} :
    Config.parse text = .ok c ↔ ofJson text = .ok c ∧ c.check? = none := by
  unfold Config.parse
  cases ofJson text with
  | error problem => simp
  | ok d =>
    unfold checked
    constructor
    · intro hok
      cases hcheck : d.check? with
      | none =>
        simp only [hcheck, Except.ok.injEq] at hok
        exact hok ▸ ⟨rfl, hcheck⟩
      | some fault => simp [hcheck] at hok
    · rintro ⟨hsame, hcheck⟩
      obtain rfl := Except.ok.inj hsame
      simp only [hcheck]

theorem exists_writes_value (c : Config) (field : Field) : ∃ cs, Writes (c.value field) cs := by
  have hstring : ∀ s : String, ∃ cs, Writes (.string s) cs := by
    intro s
    obtain ⟨cs, h⟩ := exists_writesString s
    exact ⟨cs, .string h⟩
  cases field with
  | text field => exact hstring _
  | list field =>
    refine exists_writes_array fun v hv => ?_
    obtain ⟨s, -, rfl⟩ := List.mem_map.mp hv
    exact hstring s

/-- Every configuration can be written, one with faults as well. -/
theorem exists_ofJson_eq (c : Config) : ∃ text, ofJson text = .ok c := by
  have hwrites : ∀ member ∈ c.members Field.all, ∃ cs, Writes member.2 cs := by
    intro member hmember
    obtain ⟨field, -, rfl⟩ := List.mem_map.mp hmember
    exact c.exists_writes_value field
  obtain ⟨text, htext⟩ := exists_writesText_object hwrites
  refine ⟨text, (ofJson_eq_ok_iff htext).mpr (fits_and_overwrites_iff.mp ?_)⟩
  exact ⟨fits_members Field.nodup_all c, overwrites_members (.refl _) c {}⟩

/-- What becomes of the text of a JSON object, however it is written.

* It is read as a configuration if and only if its keys are different, each is that of a field and
  its value one that the field admits, and the default configuration, overwritten by its members,
  has no fault.  That is the configuration it is read as, and members that fit determine it.
* The order of its members makes no difference.
* A configuration without fault, written field by field in any order, is read back.  Every
  configuration can be written so. -/
theorem parse_of_writesText {text : String} (h : WritesText (.object members) text) :
    (∀ c, Config.parse text = .ok c ↔ Fits members ∧ Overwrites members {} c ∧ c.check? = none) ∧
    (Fits members → ∃! c, Overwrites members {} c) ∧
    (∀ others other, members.Perm others → WritesText (.object others) other →
      ∀ c, Config.parse text = .ok c ↔ Config.parse other = .ok c) ∧
    ∀ (c : Config) (fields : List Field), fields.Perm Field.all →
      (∃ rendered, WritesText (.object (c.members fields)) rendered) ∧
      ∀ rendered, WritesText (.object (c.members fields)) rendered → c.check? = none →
        Config.parse rendered = .ok c := by
  have hparse : ∀ (members : List (String × Value)) (text : String),
      WritesText (.object members) text → ∀ c, Config.parse text = .ok c ↔
        Fits members ∧ Overwrites members {} c ∧ c.check? = none := by
    intro members text h c
    rw [parse_eq_ok_iff, ofJson_eq_ok_iff h, ← fits_and_overwrites_iff, and_assoc]
  refine ⟨hparse members text h, ?_, ?_, ?_⟩
  · intro hfits
    obtain ⟨c, hc⟩ := hfits.exists_overwrites {}
    exact ⟨c, hc, fun d hd => hd.unique hc⟩
  · intro others other hperm hother c
    rw [hparse members text h, hparse others other hother]
    constructor
    · rintro ⟨hfits, hover, hcheck⟩
      exact ⟨hfits.of_perm hperm, hover.of_perm hperm, hcheck⟩
    · rintro ⟨hfits, hover, hcheck⟩
      exact ⟨hfits.of_perm hperm.symm, hover.of_perm hperm.symm, hcheck⟩
  · intro c fields hfields
    refine ⟨exists_writesText_object fun member hmember => ?_, fun rendered hrendered hcheck => ?_⟩
    · obtain ⟨field, -, rfl⟩ := List.mem_map.mp hmember
      exact c.exists_writes_value field
    · have hfits : Fits (c.members fields) :=
        fits_members (hfields.nodup_iff.mpr Field.nodup_all) c
      exact (hparse _ rendered hrendered c).mpr ⟨hfits, overwrites_members hfields c {}, hcheck⟩

/-! ## An instance -/

/-- A text with white space, a key and a value with escapes, and an empty array. -/
def sampleText : String :=
  "\x7b\"prefi\\u0078\": \"gles\",\n \"exclusions\":[ ]," ++
  "\"failure_sentinel\" :\"\\ud83d\\ude00\"\x7d"

/-- What the sample text says. -/
def sampleMembers : List (String × Value) :=
  [("prefix", .string "gles"), ("exclusions", .array []), ("failure_sentinel", .string "😀")]

theorem writesText_sampleText : WritesText (.object sampleMembers) sampleText := by
  have hnone : IsGap [] := List.forall_mem_nil _
  have hspace : IsGap [' '] := Text.forall_mem_of_all (by decide)
  have hfeed : IsGap ['\n', ' '] := Text.forall_mem_of_all (by decide)
  have hx : SpellsUnit 'x'.toNat "0078".toList :=
    .digits (i := 0) (j := 0) (k := 7) (l := 8) (by decide) (by decide) (by decide) (by decide)
  have hleading : SpellsUnit 0xd83d "d83d".toList :=
    .digits (i := 13) (j := 8) (k := 3) (l := 13) (by decide) (by decide) (by decide) (by decide)
  have htrailing : SpellsUnit 0xde00 "de00".toList :=
    .digits (i := 13) (j := 14) (k := 0) (l := 0) (by decide) (by decide) (by decide) (by decide)
  have hplain : ∀ s : List Char, (s.all fun c => decide (0x20 ≤ c.toNat ∧ c ≠ '"' ∧ c ≠ '\\')) →
      SpellsChars s s := fun s h => spellsChars_plain (Text.forall_mem_of_all h)
  have hprefix : WritesMember ("prefix", .string "gles") _ :=
    .spaced hnone (.quoted ((hplain "prefi".toList (by decide)).append (.cons (.unit hx) .nil)))
      hnone (.spaced hspace (.string (.quoted (hplain "gles".toList (by decide)))) hnone)
  have hexclusions : WritesMember ("exclusions", .array []) _ :=
    .spaced hfeed (.quoted (hplain "exclusions".toList (by decide))) hnone
      (.spaced hnone (.emptyArray hspace) hnone)
  have hpair : SpellsChars ['😀'] _ :=
    .cons (.pair (by decide) (by decide) (by decide) hleading htrailing) .nil
  have hsentinel : WritesMember ("failure_sentinel", .string "😀") _ :=
    .spaced hnone (.quoted (hplain "failure_sentinel".toList (by decide))) hspace
      (.spaced hnone (.string (.quoted hpair)) hnone)
  have hmembers : WritesMembers sampleMembers _ :=
    .cons hprefix (.cons hexclusions (.last hsentinel))
  exact WritesElement.spaced hnone (.object hmembers) hnone

/-- The configuration that the sample text is read as. -/
def sampleConfig : Config where
  apiPrefix := "gles"
  exclusions := []
  failureSentinel := "😀"

theorem names_and_overwrites_sampleMembers :
    Names Field.all sampleMembers ∧ Overwrites sampleMembers {} sampleConfig := by
  refine (names_and_overwrites_cons_iff Field.nodup_all).mpr
    ⟨_, Field.mem_all _, rfl, _, sets_setText {} "gles" .apiPrefix, ?_⟩
  refine (names_and_overwrites_cons_iff (Field.nodup_all.erase _)).mpr
    ⟨.list .exclusions, by decide, rfl, _, sets_setList _ [] .exclusions, ?_⟩
  refine (names_and_overwrites_cons_iff ((Field.nodup_all.erase _).erase _)).mpr
    ⟨.text .failureSentinel, by decide, rfl, _, sets_setText _ "😀" .failureSentinel, ?_⟩
  exact ⟨names_nil _, overwrites_nil_iff.mpr rfl⟩

theorem parse_sampleText :
    WritesText (.object sampleMembers) sampleText ∧ Config.parse sampleText = .ok sampleConfig := by
  obtain ⟨hfits, hover⟩ := fits_and_overwrites_iff.mpr names_and_overwrites_sampleMembers
  have hcheck : sampleConfig.check? = none := by decide +kernel
  exact ⟨writesText_sampleText,
    ((parse_of_writesText writesText_sampleText).1 sampleConfig).mpr ⟨hfits, hover, hcheck⟩⟩

end CallBridge.Config
