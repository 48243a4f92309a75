import CallBridge.Dispatch.Requirement
import Mathlib.Data.List.Nodup
import Mathlib.Data.Set.Basic

/-!
# The slots that a requirement asks for

A requirement is a list in order, so two requirements are equal as soon as they have the same
entries, and what they were made from matters only for which slots it names.

* `Requirement.slotOf?_eq_some_iff`: looking a function up finds its entry;
* `Requirement.Asks` says from what a requirement is made, and for which slots it asks;
* `Asks.mem_entries_iff`: its entries are those slots, each under the name of its function;
* `Asks.unique`: requirements that ask for the same slots are equal.
-/

namespace CallBridge.Dispatch

open Text

/-! ## Entering slots -/

/-- Entries in which every function is named after its slot. -/
def NamedBy (apiPrefix : String) (entries : List (String × String)) : Prop :=
  ∀ entry ∈ entries, entry.1 = apiPrefix ++ entry.2

/-- Entering a slot adds its entry and removes none.  An entry whose place it takes is the same
one, because the slot of a function can be told from its name. -/
theorem mem_insertEntry_iff {apiPrefix slot : String} {entries : List (String × String)}
    {entry : String × String} (hnamed : NamedBy apiPrefix entries) :
    entry ∈ insertEntry (apiPrefix ++ slot) slot entries ↔
      entry = (apiPrefix ++ slot, slot) ∨ entry ∈ entries := by
  induction entries with
  | nil => simp [insertEntry]
  | cons head rest ih =>
    obtain ⟨hhead, hrest⟩ := List.forall_mem_cons.mp hnamed
    simp only [insertEntry]
    split
    · exact List.mem_cons
    · split
      · rename_i heq
        have hslot : slot = head.2 := by
          rw [hhead] at heq
          exact (String.append_right_inj apiPrefix).mp heq
        have hsame : (apiPrefix ++ slot, slot) = head := Prod.ext heq hslot
        rw [hsame, List.mem_cons]
        exact ⟨Or.inr, fun h => h.elim Or.inl id⟩
      · rw [List.mem_cons, List.mem_cons, ih hrest]
        exact or_left_comm

namespace Requirement

/-- Slots that are entered one after the other are added to those that are there. -/
theorem mem_entries_foldl_insert_iff {apiPrefix : String} {r : Requirement}
    (hnamed : NamedBy apiPrefix r.entries) (slots : List String) {entry : String × String} :
    entry ∈ (slots.foldl (fun r slot => r.insert apiPrefix slot) r).entries ↔
      entry ∈ r.entries ∨ entry.2 ∈ slots ∧ entry.1 = apiPrefix ++ entry.2 := by
  induction slots generalizing r with
  | nil => simp
  | cons slot slots ih =>
    have hmem (other : String × String) :
        other ∈ (r.insert apiPrefix slot).entries ↔
          other = (apiPrefix ++ slot, slot) ∨ other ∈ r.entries :=
      mem_insertEntry_iff hnamed
    have hinsert : NamedBy apiPrefix (r.insert apiPrefix slot).entries := by
      intro other hother
      rcases (hmem other).mp hother with hnew | hold
      · rw [hnew]
      · exact hnamed other hold
    rw [List.foldl_cons, ih hinsert, hmem, List.mem_cons]
    constructor
    · intro h
      rcases h with (hnew | hold) | ⟨hslots, hname⟩
      · rw [hnew]
        exact Or.inr ⟨Or.inl rfl, rfl⟩
      · exact Or.inl hold
      · exact Or.inr ⟨Or.inr hslots, hname⟩
    · intro h
      rcases h with hold | ⟨hslot | hslots, hname⟩
      · exact Or.inl (Or.inr hold)
      · rw [hslot] at hname
        exact Or.inl (Or.inl (Prod.ext hname hslot))
      · exact Or.inr ⟨hslots, hname⟩

/-- The entries of given slots. -/
theorem mem_entries_ofSlots_iff {apiPrefix : String} {slots : List String}
    {entry : String × String} :
    entry ∈ (ofSlots apiPrefix slots).entries ↔
      entry.2 ∈ slots ∧ entry.1 = apiPrefix ++ entry.2 := by
  have hempty : NamedBy apiPrefix ({} : Requirement).entries := fun entry hentry =>
    absurd hentry List.not_mem_nil
  rw [ofSlots, mem_entries_foldl_insert_iff hempty]
  exact or_iff_right List.not_mem_nil

/-- The order of the entries leaves nothing to choose: requirements with the same entries are
equal. -/
theorem eq_of_mem_entries_iff {r s : Requirement}
    (h : ∀ entry, entry ∈ r.entries ↔ entry ∈ s.entries) : r = s := by
  have hnodup (t : Requirement) : t.entries.Nodup :=
    t.inOrder.imp fun hlt heq => String.ne_of_lt hlt (congrArg Prod.fst heq)
  have hperm : r.entries.Perm s.entries :=
    (List.perm_ext_iff_of_nodup (hnodup r) (hnodup s)).mpr h
  have hentries : r.entries = s.entries :=
    hperm.eq_of_pairwise
      (fun first second _ _ hlt hgt => absurd (String.lt_trans hlt hgt) (String.lt_irrefl _))
      r.inOrder s.inOrder
  cases r
  cases s
  cases hentries
  rfl

/-! ## Looking up -/

theorem pairwise_names (r : Requirement) :
    r.names.Pairwise fun earlier later => earlier < later := by
  rw [names, List.pairwise_map]
  exact r.inOrder

theorem nodup_names (r : Requirement) : r.names.Nodup :=
  r.pairwise_names.imp String.ne_of_lt

/-- The slot of a function is that of its entry. -/
theorem slotOf?_of_mem {r : Requirement} {entry : String × String}
    (hmem : entry ∈ r.entries) : r.slotOf? entry.1 = some entry.2 := by
  have hother : ∀ other ∈ r.entries, other.1 = entry.1 → other = entry := by
    intro other hin hname
    exact List.inj_on_of_nodup_map r.nodup_names hin hmem hname
  have hfind : r.entries.find? (·.1 == entry.1) = some entry := by
    cases hfound : r.entries.find? (·.1 == entry.1) with
    | none =>
      have hnone := List.find?_eq_none.mp hfound entry hmem
      exact absurd (beq_self_eq_true entry.1) hnone
    | some other =>
      have hname : other.1 = entry.1 := by simpa using List.find?_some hfound
      rw [hother other (List.mem_of_find?_eq_some hfound) hname]
  rw [slotOf?, hfind]
  rfl

theorem slotOf?_eq_some_iff {r : Requirement} {name slot : String} :
    r.slotOf? name = some slot ↔ (name, slot) ∈ r.entries := by
  refine ⟨fun h => ?_, fun hmem => slotOf?_of_mem hmem⟩
  obtain ⟨entry, hfound, rfl⟩ := Option.map_eq_some_iff.mp h
  have hname : entry.1 = name := by simpa using List.find?_some hfound
  exact hname ▸ List.mem_of_find?_eq_some hfound

end Requirement

/-! ## Slots of a dispatch header -/

/-- The slots that are read are those of the setter lines. -/
theorem mem_slotsFrom_iff {number : Nat} {ls slots : List (List Char)}
    (h : slotsFrom number ls = .ok slots) {slot : List Char} :
    slot ∈ slots ↔ ∃ line ∈ ls, setterSlot? (trim line) = some slot := by
  induction ls generalizing number slots with
  | nil =>
    cases h
    simp
  | cons line ls ih =>
    rw [slotsFrom] at h
    cases hslot : setterSlot? (trim line) with
    | none =>
      rw [hslot] at h
      simp [ih h, hslot]
    | some found =>
      cases found with
      | nil =>
        rw [hslot] at h
        contradiction
      | cons c cs =>
        rw [hslot] at h
        cases hrest : slotsFrom (number + 1) ls with
        | error fault =>
          rw [hrest] at h
          contradiction
        | ok rest =>
          rw [hrest] at h
          cases h
          simp [ih hrest, hslot, eq_comm]

namespace Requirement

/-- A requirement asks for the slots of a dispatch header, without those to be ignored, or for
given slots, of which nothing is ignored. -/
inductive Asks (apiPrefix : String) (ignored : List String) (wanted : Set String) :
    Requirement → Prop where
  | header {text : String} {r : Requirement} (hparse : parse text apiPrefix ignored = .ok r)
      (hwanted : ∀ slot, slot ∈ wanted ↔ slot ∉ ignored ∧
        ∃ line ∈ lines text.toList, setterSlot? (trim line) = some slot.toList) :
      Asks apiPrefix ignored wanted r
  | slots {slots : List String} (hwanted : ∀ slot, slot ∈ wanted ↔ slot ∈ slots) :
      Asks apiPrefix ignored wanted (ofSlots apiPrefix slots)

variable {apiPrefix : String} {ignored : List String} {wanted : Set String} {r s : Requirement}

/-- A requirement has an entry for each slot it asks for, and no other entries. -/
theorem Asks.mem_entries_iff (h : r.Asks apiPrefix ignored wanted) {entry : String × String} :
    entry ∈ r.entries ↔ entry.2 ∈ wanted ∧ entry.1 = apiPrefix ++ entry.2 := by
  cases h with
  | slots hwanted => rw [mem_entries_ofSlots_iff, hwanted]
  | @header text _ hparse hwanted =>
    cases hslots : slotsFrom 1 (lines text.toList) with
    | error fault =>
      rw [parse, hslots] at hparse
      contradiction
    | ok slots =>
      rw [parse, hslots] at hparse
      cases hparse
      have hread : entry.2 ∈ slots.map String.ofList ↔ entry.2.toList ∈ slots := by
        rw [List.mem_map]
        constructor
        · intro hmap
          obtain ⟨slot, hmem, heq⟩ := hmap
          rw [← heq, String.toList_ofList]
          exact hmem
        · intro hmem
          exact ⟨entry.2.toList, hmem, String.ofList_toList⟩
      rw [mem_entries_ofSlots_iff, hwanted, List.mem_filter, hread, mem_slotsFrom_iff hslots]
      simp [and_comm]

/-- Requirements that ask for the same slots are equal. -/
theorem Asks.unique (hr : r.Asks apiPrefix ignored wanted) (hs : s.Asks apiPrefix ignored wanted) :
    r = s :=
  eq_of_mem_entries_iff fun _ => hr.mem_entries_iff.trans hs.mem_entries_iff.symm

end Requirement

end CallBridge.Dispatch
