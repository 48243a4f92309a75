import CallBridge.Dispatch.Setter
import CallBridge.Report
import CallBridge.Text.Bytes
import CallBridge.Text.Lines

/-!
# The slots that have to be filled

A dispatch table has slots, and each slot wants the wrapper of one driver
function: the one whose name is the slot name with the API name in front.  A
`Requirement` lists functions and slots in the order of the function names, each name
once.  Names are ordered by their characters, which is the order of their bytes.

`Requirement.parse` reads the slots from a dispatch header; a setter without a slot
name is a fault.
-/

namespace CallBridge.Dispatch

open Text

/-- Entries stand in strict order of their names. -/
def InOrder (entries : List (String × String)) : Prop :=
  entries.Pairwise fun earlier later => earlier.1 < later.1

/-- Functions with their slots, in order of the function names. -/
structure Requirement where
  entries : List (String × String) := []
  inOrder : InOrder entries := by exact List.Pairwise.nil
  deriving DecidableEq, Repr

/-- Enters a function with its slot among entries in order. -/
def insertEntry (name slot : String) : List (String × String) → List (String × String)
  | [] => [(name, slot)]
  | entry :: rest =>
    if name < entry.1 then (name, slot) :: entry :: rest
    else if name = entry.1 then (name, slot) :: rest
    else entry :: insertEntry name slot rest

/-- An entry is the one that is entered or was there before. -/
theorem eq_or_mem_of_mem_insertEntry {name slot : String} {entries : List (String × String)}
    {entry : String × String} (hmem : entry ∈ insertEntry name slot entries) :
    entry = (name, slot) ∨ entry ∈ entries := by
  induction entries with
  | nil => simpa [insertEntry] using hmem
  | cons head rest ih =>
    simp only [insertEntry] at hmem
    split at hmem
    · simpa using hmem
    · split at hmem
      · rcases List.mem_cons.mp hmem with hnew | hrest
        · exact Or.inl hnew
        · exact Or.inr (List.mem_cons_of_mem _ hrest)
      · rcases List.mem_cons.mp hmem with rfl | hrest
        · exact Or.inr List.mem_cons_self
        · exact (ih hrest).imp_right (List.mem_cons_of_mem _)

theorem inOrder_insertEntry (name slot : String) {entries : List (String × String)}
    (h : InOrder entries) : InOrder (insertEntry name slot entries) := by
  induction entries with
  | nil => exact List.pairwise_singleton _ _
  | cons head rest ih =>
    obtain ⟨hhead, hrest⟩ := List.pairwise_cons.mp h
    simp only [insertEntry]
    split
    · rename_i hlt
      refine List.pairwise_cons.mpr ⟨fun entry hmem => ?_, h⟩
      rcases List.mem_cons.mp hmem with rfl | hin
      · exact hlt
      · exact String.lt_trans hlt (hhead entry hin)
    · rename_i hnlt
      split
      · rename_i heq
        exact List.pairwise_cons.mpr ⟨fun entry hmem => heq ▸ hhead entry hmem, hrest⟩
      · rename_i hne
        have hlt : head.1 < name := String.not_le.mp fun hle =>
          hne (String.le_antisymm hle (String.not_lt.mp hnlt))
        refine List.pairwise_cons.mpr ⟨fun entry hmem => ?_, ih hrest⟩
        rcases eq_or_mem_of_mem_insertEntry hmem with rfl | hin
        · exact hlt
        · exact hhead entry hin

namespace Requirement

/-- Enters a slot. -/
def insert (r : Requirement) (apiPrefix slot : String) : Requirement :=
  ⟨insertEntry (apiPrefix ++ slot) slot r.entries, inOrder_insertEntry _ _ r.inOrder⟩

/-- The requirement of slots given by name. -/
def ofSlots (apiPrefix : String) (slots : List String) : Requirement :=
  slots.foldl (fun r slot => r.insert apiPrefix slot) {}

/-- The required functions, in order. -/
def names (r : Requirement) : List String :=
  r.entries.map Prod.fst

/-- The slot of a function. -/
def slotOf? (r : Requirement) (name : String) : Option String :=
  (r.entries.find? (·.1 == name)).map Prod.snd

end Requirement

/-- A setter has no slot name.  Line and column count from one. -/
structure Fault where
  line : Nat
  column : Nat
  snippet : String
  deriving DecidableEq, Repr

/-- The report of a setter without a slot name. -/
def Fault.report (fault : Fault) : Report where
  code := "DSP301"
  message := "SET_ マクロにスロット名がありません"
  line := some fault.line
  column := some fault.column
  snippet := some fault.snippet

/-- The slots that the lines from a given number on set, in order. -/
def slotsFrom (number : Nat) : List (List Char) → Except Fault (List (List Char))
  | [] => .ok []
  | raw :: rest =>
    match setterSlot? (trim raw) with
    | none => slotsFrom (number + 1) rest
    | some [] => .error ⟨number, width (raw.takeWhile isBlank) + 1, String.ofList raw⟩
    | some slot => do
      let slots ← slotsFrom (number + 1) rest
      .ok (slot :: slots)

/-- The requirement that a dispatch header states, without the slots to be
ignored. -/
def Requirement.parse (text apiPrefix : String) (ignored : List String) :
    Except Fault Requirement := do
  let slots ← slotsFrom 1 (lines text.toList)
  .ok (Requirement.ofSlots apiPrefix
    ((slots.map String.ofList).filter fun slot => !ignored.contains slot))

end CallBridge.Dispatch
