import CallBridge.Proofs.Files.Write

/-!
# Trees of the same layout

Two trees have the same layout if files and directories stand at the same places in both.  What the
files hold is left open, so a path leads to the same place in both trees, or it fails for the same
reason.

* `Tree.SameLayout.walk`: a walk ends in the same way in both trees;
* `Tree.SameLayout.read`: a path is read alike if its file holds the same in both trees;
* `Tree.SameLayout.write`: a write puts the text at the same place in both trees, or fails alike;
* `Tree.sameLayout_of_write`: writing to a file that is there keeps the layout.
-/

namespace CallBridge.Files

namespace Tree

/-- What stands at a place in two trees: nothing, directories, or files. -/
inductive StandsAlike : Option Entry → Option Entry → Prop where
  | nothing : StandsAlike none none
  | directory : StandsAlike (some .directory) (some .directory)
  | file (bytes bytes' : ByteArray) : StandsAlike (some (.file bytes)) (some (.file bytes'))

/-- Files and directories stand at the same places in two trees. -/
def SameLayout (t t' : Tree) : Prop :=
  ∀ place, StandsAlike (t.at? place) (t'.at? place)

/-- Two walks fail for the same reason, or end at the same place, at directories or at files. -/
inductive EndsAlike : Except FileFault (List String × Entry) →
    Except FileFault (List String × Entry) → Prop where
  | fault (fault : FileFault) : EndsAlike (.error fault) (.error fault)
  | directory (place : List String) : EndsAlike (.ok (place, .directory)) (.ok (place, .directory))
  | file (place : List String) (bytes bytes' : ByteArray) :
    EndsAlike (.ok (place, .file bytes)) (.ok (place, .file bytes'))

/-- Two writes of a text fail for the same reason, or put it at the same place. -/
inductive WritesAlike (t t' : Tree) (text : String) :
    Except FileFault Tree → Except FileFault Tree → Prop where
  | fault (fault : FileFault) : WritesAlike t t' text (.error fault) (.error fault)
  | put (place : List String) :
    WritesAlike t t' text (.ok (t.put place text)) (.ok (t'.put place text))

variable {t t' after : Tree} {place dir : List String} {name path text : String}
  {pieces : List String} {bytes : ByteArray}

theorem StandsAlike.refl (entry : Option Entry) : StandsAlike entry entry := by
  match entry with
  | none => exact .nothing
  | some .directory => exact .directory
  | some (.file bytes) => exact .file bytes bytes

/-! ## Walking -/

theorem SameLayout.walk (h : SameLayout t t') (place pieces : List String) :
    EndsAlike (t.walk place pieces) (t'.walk place pieces) := by
  induction pieces generalizing place with
  | nil => exact .directory place
  | cons piece rest ih =>
    rw [Tree.walk, Tree.walk]
    split
    · exact ih place
    · split
      · exact ih (parent place)
      · split
        · exact .fault .nameTooLong
        · have hstands := h (place ++ [piece])
          generalize t.at? (place ++ [piece]) = one, t'.at? (place ++ [piece]) = other at hstands
          cases hstands with
          | nothing => exact .fault .missing
          | directory => exact ih (place ++ [piece])
          | file bytes bytes' =>
            simp only
            split
            · exact .file _ bytes bytes'
            · exact .fault .notDirectory

theorem SameLayout.find (h : SameLayout t t') (path : String) :
    EndsAlike (t.find path) (t'.find path) := by
  rw [Tree.find, Tree.find]
  cases pathFault? path with
  | some fault => exact .fault fault
  | none => exact h.walk _ _

/-- What a walk finds at its end stands there, if it is a file. -/
theorem at?_of_walk (h : t.walk place pieces = .ok (dir, .file bytes)) :
    t.at? dir = some (.file bytes) := by
  induction pieces generalizing place with
  | nil => cases h
  | cons piece rest ih =>
    rw [Tree.walk] at h
    split at h
    · exact ih h
    · split at h
      · exact ih h
      · split at h
        · cases h
        · split at h
          · cases h
          · exact ih h
          · next hfile =>
            split at h
            · cases h
              exact hfile
            · cases h

theorem at?_of_find (h : t.find path = .ok (place, .file bytes)) :
    t.at? place = some (.file bytes) := by
  rw [Tree.find] at h
  split at h
  · cases h
  · exact at?_of_walk h

/-! ## Reading and writing -/

/-- A path is read alike if the file to which it leads holds the same in both trees. -/
theorem SameLayout.read (h : SameLayout t t')
    (hsame : ∀ place bytes, t.find path = .ok (place, .file bytes) →
      t'.at? place = t.at? place) : t'.read path = t.read path := by
  have hends := h.find path
  rw [Tree.read, Tree.read]
  generalize hone : t.find path = one, hother : t'.find path = other at hends
  cases hends with
  | fault fault => rfl
  | directory place => rfl
  | file place bytes bytes' =>
    have hfile := hsame place bytes hone
    rw [at?_of_find hone, at?_of_find hother] at hfile
    cases hfile
    rfl

theorem SameLayout.writeIn (h : SameLayout t t') (dir : List String) (name : String)
    (slash : Bool) (text : String) :
    WritesAlike t t' text (t.writeIn dir name slash text) (t'.writeIn dir name slash text) := by
  rw [Tree.writeIn, Tree.writeIn]
  split
  · exact .fault .isDirectory
  · split
    · exact .fault .nameTooLong
    · have hstands := h (dir ++ [name])
      generalize t.at? (dir ++ [name]) = one, t'.at? (dir ++ [name]) = other at hstands
      cases hstands with
      | nothing | file => exact .put _
      | directory => exact .fault .isDirectory

theorem SameLayout.write (h : SameLayout t t') (path text : String) :
    WritesAlike t t' text (t.write path text) (t'.write path text) := by
  rw [Tree.write, Tree.write]
  cases pathFault? path with
  | some fault => exact .fault fault
  | none =>
    simp only
    have hends := h.walk (startOf path) ((piecesOf path).filter (· != "")).dropLast
    generalize t.walk (startOf path) ((piecesOf path).filter (· != "")).dropLast = one,
      t'.walk (startOf path) ((piecesOf path).filter (· != "")).dropLast = other at hends
    cases hends with
    | fault fault => exact .fault fault
    | directory dir => exact h.writeIn dir _ _ text
    | file => exact .fault .notDirectory

/-- A path leads to a file in the directory to which all its pieces but the last one lead. -/
theorem Leads.eq_of_walk {init : List String} (hleads : Leads t place init dir)
    (hstays : staysPut name = false) (hup : name ≠ "..")
    (hwidth : ¬ maxPieceWidth < name.utf8ByteSize) {other : List String}
    (hfile : t.walk place (init ++ [name]) = .ok (other, .file bytes)) :
    other = dir ++ [name] := by
  rw [hleads.walk_append, walk, if_neg (by simp [hstays]), if_neg hup, if_neg hwidth] at hfile
  split at hfile
  · cases hfile
  · cases hfile
  · split at hfile
    · cases hfile
      rfl
    · cases hfile

/-- Writing to a file that is there keeps the layout, and what stands at other places. -/
theorem sameLayout_of_write (hfile : t.find path = .ok (place, .file bytes))
    (hwrite : t.write path text = .ok after) :
    SameLayout t after ∧ ∀ other, other ≠ place → after.at? other = t.at? other := by
  obtain ⟨hpath, init, dir, name, hpieces, hleads, hwriteIn⟩ := eq_put_of_write hwrite
  obtain ⟨hstays, hup, -, hwidth, -, rfl⟩ := eq_put_of_writeIn hwriteIn
  have hwalk : t.walk (startOf path) (init ++ [name]) = .ok (place, .file bytes) := by
    rw [find, hpath] at hfile
    exact hpieces ▸ hfile
  obtain rfl := hleads.eq_of_walk hstays hup hwidth hwalk
  have hframe : ∀ other, other ≠ dir ++ [name] →
      (t.put (dir ++ [name]) text).at? other = t.at? other :=
    fun other hne => at?_put_of_ne (hleads.isSome_at? (isSome_at?_startOf t path)) hne
  refine ⟨fun other => ?_, hframe⟩
  by_cases hother : other = dir ++ [name]
  · subst hother
    rw [at?_of_find hfile, at?_put]
    exact .file _ _
  · rw [hframe other hother]
    exact .refl _

end Tree

end CallBridge.Files
