import CallBridge.Table
import Mathlib.Data.List.Induction

/-!
# Keys and values of tables

A table is a list of pairs, so nothing in its type says that a key occurs once.
`NodupKeys` says it, and every table that is made by entering pairs has it.  With
distinct keys, looking up a key and finding its pair in the list are the same thing.

* `keys_ofList`: the keys of a table are those of the pairs, in order of first entry;
* `get?_ofList`: the value under a key is that of the last pair with this key;
* `ofList_eq_self_of_nodupKeys`: pairs with distinct keys make a table as they stand.
-/

namespace CallBridge.Table

variable {α β : Type}

/-- Every key occurs at most once. -/
def NodupKeys (table : Table α) : Prop :=
  (keys table).Nodup

/-! ## Looking up -/

/-- A key without a value is not among the keys. -/
theorem get?_eq_none_iff {key : String} {table : Table α} :
    get? key table = none ↔ key ∉ keys table := by
  induction table with
  | nil => simp [get?, keys]
  | cons entry rest ih =>
    by_cases hkey : entry.1 = key
    · simp [get?, keys, hkey]
    · simp only [keys] at ih
      simp [get?, keys, hkey, Ne.symm hkey, ih]

theorem has_eq_true_iff {key : String} {table : Table α} :
    has key table = true ↔ key ∈ keys table := by
  rw [has, Option.isSome_iff_ne_none, Ne, get?_eq_none_iff, Decidable.not_not]

/-- A value that is looked up stands in the table. -/
theorem mem_of_get?_eq_some {key : String} {value : α} {table : Table α}
    (h : get? key table = some value) : (key, value) ∈ table := by
  induction table with
  | nil => simp [get?] at h
  | cons entry rest ih =>
    by_cases hkey : entry.1 = key
    · have hvalue : entry.2 = value := by simpa [get?, hkey] using h
      subst hkey hvalue
      exact List.mem_cons_self
    · simp only [get?, hkey, if_false] at h
      exact List.mem_cons_of_mem _ (ih h)

/-- With distinct keys, a pair of the table is what looking up its key gives. -/
theorem get?_eq_some_of_mem {key : String} {value : α} {table : Table α}
    (hnodup : NodupKeys table) (hmem : (key, value) ∈ table) :
    get? key table = some value := by
  induction table with
  | nil => simp at hmem
  | cons entry rest ih =>
    have hcons : entry.1 ∉ keys rest ∧ NodupKeys rest := by
      simpa [NodupKeys, keys, List.nodup_cons] using hnodup
    rcases List.mem_cons.mp hmem with rfl | hrest
    · simp [get?]
    · have hkey : key ∈ keys rest := List.mem_map.mpr ⟨(key, value), hrest, rfl⟩
      have hne : entry.1 ≠ key := fun heq => hcons.1 (heq ▸ hkey)
      rw [get?, if_neg hne]
      exact ih hcons.2 hrest

/-- With distinct keys, what is looked up does not depend on the order of the pairs. -/
theorem get?_eq_of_perm {first second : Table α} (hperm : first.Perm second)
    (hnodup : NodupKeys first) (key : String) : get? key first = get? key second := by
  have hnodup' : NodupKeys second := (hperm.map Prod.fst).nodup_iff.mp hnodup
  cases hfirst : get? key first with
  | some value =>
    have hmem := hperm.mem_iff.mp (mem_of_get?_eq_some hfirst)
    exact (get?_eq_some_of_mem hnodup' hmem).symm
  | none =>
    rw [get?_eq_none_iff] at hfirst
    refine (get?_eq_none_iff.mpr fun hmem => hfirst ?_).symm
    exact (hperm.map Prod.fst).mem_iff.mpr hmem

/-- Changing the values, each by its key, changes what is looked up. -/
theorem get?_mapValues (change : String → α → β) (key : String) (table : Table α) :
    get? key (table.map fun entry => (entry.1, change entry.1 entry.2)) =
      (get? key table).map (change key) := by
  induction table with
  | nil => simp [get?]
  | cons entry rest ih =>
    by_cases hkey : entry.1 = key
    · simp [get?, hkey]
    · simp [get?, hkey, ih]

/-! ## Entering pairs -/

/-- A new key goes to the end with its value. -/
theorem put_eq_concat_of_not_mem {key : String} {table : Table α} (h : key ∉ keys table)
    (value : α) : put key value table = table ++ [(key, value)] := by
  induction table with
  | nil => simp [put]
  | cons entry rest ih =>
    have hne : entry.1 ≠ key ∧ key ∉ keys rest := by
      simpa [keys, eq_comm] using h
    rw [put, if_neg hne.1, ih hne.2, List.cons_append]

/-- Changing the values, each by its key, can wait until a further one has been entered. -/
theorem mapValues_put (change : String → α → β) (key : String) (value : α) (table : Table α) :
    (put key value table).map (fun entry => (entry.1, change entry.1 entry.2)) =
      put key (change key value) (table.map fun entry => (entry.1, change entry.1 entry.2)) := by
  induction table with
  | nil => rfl
  | cons entry rest ih =>
    by_cases hkey : entry.1 = key
    · simp [put, hkey]
    · simp [put, hkey, ih]

theorem nodupKeys_put {table : Table α} (hnodup : NodupKeys table) (key : String)
    (value : α) : NodupKeys (put key value table) := by
  rw [NodupKeys, keys_put]
  split
  · exact hnodup
  · rename_i hnew
    refine List.nodup_append.mpr ⟨hnodup, by simp, ?_⟩
    intro a ha b hb hab
    rw [List.mem_singleton.mp hb] at hab
    exact hnew (hab ▸ ha)

theorem ofList_concat (entries : List (String × α)) (entry : String × α) :
    ofList (entries ++ [entry]) = put entry.1 entry.2 (ofList entries) := by
  simp [ofList]

theorem nodupKeys_ofList (entries : List (String × α)) : NodupKeys (ofList entries) := by
  induction entries using List.reverseRecOn with
  | nil => simp [ofList, NodupKeys, keys]
  | append_singleton entries entry ih =>
    rw [ofList_concat]
    exact nodupKeys_put ih entry.1 entry.2

/-- The keys are those of the pairs, in order of first entry. -/
theorem keys_ofList (entries : List (String × α)) :
    keys (ofList entries) = (entries.map Prod.fst).eraseDups := by
  induction entries using List.reverseRecOn with
  | nil => simp [ofList, keys]
  | append_singleton entries entry ih =>
    have hmem : entry.1 ∈ keys (ofList entries) ↔ entry.1 ∈ entries.map Prod.fst := by
      rw [ih, List.mem_eraseDups]
    rw [ofList_concat, keys_put, List.map_append, List.eraseDups_append, ← ih]
    simp only [hmem]
    split <;> simp_all [List.removeAll, List.eraseDups_cons]

/-- The value under a key is that of the last pair with this key. -/
theorem get?_ofList (key : String) (entries : List (String × α)) :
    get? key (ofList entries) =
      ((entries.filter fun entry => entry.1 == key).getLast?).map Prod.snd := by
  induction entries using List.reverseRecOn with
  | nil => simp [ofList, get?]
  | append_singleton entries entry ih =>
    rw [ofList_concat, List.filter_append]
    by_cases hkey : entry.1 = key
    · subst hkey
      simp [get?_put_self]
    · rw [get?_put_of_ne (Ne.symm hkey), ih]
      simp [hkey]

/-- Pairs with distinct keys make a table as they stand. -/
theorem ofList_eq_self_of_nodupKeys {entries : Table α} (hnodup : NodupKeys entries) :
    ofList entries = entries := by
  induction entries using List.reverseRecOn with
  | nil => simp [ofList]
  | append_singleton entries entry ih =>
    rw [NodupKeys, keys, List.map_append, List.nodup_append] at hnodup
    obtain ⟨hfront, _, hdisjoint⟩ := hnodup
    have hnew : entry.1 ∉ keys entries :=
      fun hmem => hdisjoint _ hmem _ (List.mem_singleton_self _) rfl
    rw [ofList_concat, ih hfront, put_eq_concat_of_not_mem hnew]

end CallBridge.Table
