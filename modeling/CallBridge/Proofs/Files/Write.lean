import CallBridge.Files.Tree
import CallBridge.Text.Blank

/-!
# Writing a file

A write changes one place.  Its path leads there afterwards, the text is read back, and what
stands at any other place is as before.

* `piecesOf_eq_append`: the pieces of a path that does not end with a slash end with a name;
* `Tree.Leads`: walks that lead to a directory, step by step;
* `Tree.at?_put_of_ne`: a file that is put into a directory changes no other place;
* `Tree.rewrites_of_write`: what a write that succeeds leaves behind.
-/

namespace CallBridge.Files

/-! ## The last piece of a path -/

theorem piecesOf_eq_pieces (path : String) :
    piecesOf path = (Text.pieces (· == '/') path.toList).map String.ofList := by
  rw [piecesOf, piecesOf.splitPieces]
  congr 1
  induction path.toList with
  | nil => rfl
  | cons c cs ih =>
    obtain ⟨first, rest, hpieces⟩ :=
      List.exists_cons_of_ne_nil (Text.pieces_ne_nil (· == '/') cs)
    rw [hpieces] at ih
    rw [List.foldr_cons, ih, Text.pieces, hpieces]
    by_cases hc : c = '/'
    · simp [hc]
    · simp [hc, Text.consFirst]

/-- Only behind a separator, or in an empty text, is the last piece empty. -/
theorem getLast?_of_pieces {separates : Char → Bool} {cs : List Char}
    (h : (Text.pieces separates cs).getLast? = some []) :
    cs = [] ∨ ∃ c, cs.getLast? = some c ∧ separates c = true := by
  induction cs with
  | nil => exact .inl rfl
  | cons c cs ih =>
    right
    obtain ⟨first, rest, hpieces⟩ :=
      List.exists_cons_of_ne_nil (Text.pieces_ne_nil separates cs)
    rw [hpieces] at ih
    rw [Text.pieces, hpieces] at h
    by_cases hc : separates c = true
    · rw [if_pos hc, List.getLast?_cons_cons] at h
      rcases ih h with rfl | ⟨d, hd, hsep⟩
      · exact ⟨c, rfl, hc⟩
      · exact ⟨d, by rw [List.getLast?_cons, hd]; rfl, hsep⟩
    · rw [if_neg hc, Text.consFirst] at h
      cases rest with
      | nil => simp at h
      | cons second rest =>
        rw [List.getLast?_cons_cons] at h ih
        rcases ih h with rfl | ⟨d, hd, hsep⟩
        · simp [Text.pieces] at hpieces
        · exact ⟨d, by rw [List.getLast?_cons, hd]; rfl, hsep⟩

/-- The pieces of a path that does not end with a slash end with a piece that is not empty. -/
theorem piecesOf_eq_append {path : String} (hempty : path ≠ "")
    (hslash : path.toList.getLast? ≠ some '/') :
    ∃ init name, piecesOf path = init ++ [name] ∧ name ≠ "" := by
  have hne : piecesOf path ≠ [] := by
    rw [piecesOf_eq_pieces]
    simpa using Text.pieces_ne_nil (· == '/') path.toList
  refine ⟨(piecesOf path).dropLast, (piecesOf path).getLast hne,
    (List.dropLast_concat_getLast hne).symm, ?_⟩
  intro hname
  have hlast : (Text.pieces (· == '/') path.toList).getLast? = some [] := by
    have hmap : (piecesOf path).getLast? = some "" := by
      rw [List.getLast?_eq_some_getLast hne, hname]
    rw [piecesOf_eq_pieces, List.getLast?_map, Option.map_eq_some_iff] at hmap
    obtain ⟨piece, hpiece, htext⟩ := hmap
    have : piece = [] := by simpa using congrArg String.toList htext
    rw [hpiece, this]
  rcases getLast?_of_pieces hlast with hnil | ⟨c, hc, hsep⟩
  · exact hempty (by simpa using hnil)
  · rw [beq_iff_eq] at hsep
    exact hslash (hsep ▸ hc)

namespace Tree

variable {t t' : Tree} {place other dir : List String} {name path text : String}
  {pieces : List String}

/-! ## Walking to a directory -/

/-- A walk along pieces from one directory to another, step by step. -/
inductive Leads (t : Tree) : List String → List String → List String → Prop where
  | here (place : List String) : Leads t place [] place
  | stay {place rest dir : List String} {piece : String} (hstays : staysPut piece = true)
    (hrest : Leads t place rest dir) : Leads t place (piece :: rest) dir
  | up {place rest dir : List String} (hrest : Leads t (parent place) rest dir) :
    Leads t place (".." :: rest) dir
  | down {place rest dir : List String} {piece : String} (hstays : staysPut piece = false)
    (hup : piece ≠ "..") (hwidth : ¬ maxPieceWidth < piece.utf8ByteSize)
    (hdirectory : t.at? (place ++ [piece]) = some .directory)
    (hrest : Leads t (place ++ [piece]) rest dir) : Leads t place (piece :: rest) dir

theorem leads_of_walk (h : t.walk place pieces = .ok (dir, .directory)) :
    Leads t place pieces dir := by
  induction pieces generalizing place with
  | nil =>
    cases h
    exact .here _
  | cons piece rest ih =>
    rw [walk] at h
    by_cases hstays : staysPut piece = true
    · rw [if_pos hstays] at h
      exact .stay hstays (ih h)
    rw [if_neg hstays] at h
    by_cases hup : piece = ".."
    · subst hup
      exact .up (ih h)
    rw [if_neg hup] at h
    by_cases hwidth : maxPieceWidth < piece.utf8ByteSize
    · rw [if_pos hwidth] at h
      cases h
    rw [if_neg hwidth] at h
    split at h
    · cases h
    · next hdirectory => exact .down (by simpa using hstays) hup hwidth hdirectory (ih h)
    · split at h <;> cases h

namespace Leads

/-- A walk goes on from the directory to which it has led. -/
theorem walk_append (h : Leads t place pieces dir) (rest : List String) :
    t.walk place (pieces ++ rest) = t.walk dir rest := by
  induction h with
  | here => rfl
  | stay hstays _ ih => rw [List.cons_append, walk, if_pos hstays, ih]
  | up _ ih => rw [List.cons_append, walk, if_neg (by decide), if_pos rfl, ih]
  | down hstays hup hwidth hdirectory _ ih =>
    rw [List.cons_append, walk, if_neg (by simp [hstays]), if_neg hup, if_neg hwidth,
      hdirectory, ih]

/-- Empty pieces do not change where a walk leads. -/
theorem of_filter (h : Leads t place (pieces.filter (· != "")) dir) :
    Leads t place pieces dir := by
  induction pieces generalizing place with
  | nil => exact h
  | cons piece rest ih =>
    by_cases hempty : piece = ""
    · subst hempty
      exact .stay rfl (ih h)
    · rw [List.filter_cons_of_pos (by simpa using hempty)] at h
      cases h with
      | stay hstays hrest => exact .stay hstays (ih hrest)
      | up hrest => exact .up (ih hrest)
      | down hstays hup hwidth hdirectory hrest =>
        exact .down hstays hup hwidth hdirectory (ih hrest)

/-- A walk takes the same way through a tree in which all directories are still there. -/
theorem mono (hsame : ∀ place, t.at? place = some .directory → t'.at? place = some .directory)
    (h : Leads t place pieces dir) : Leads t' place pieces dir := by
  induction h with
  | here place => exact .here place
  | stay hstays _ ih => exact .stay hstays ih
  | up _ ih => exact .up ih
  | down hstays hup hwidth hdirectory _ ih =>
    exact .down hstays hup hwidth (hsame _ hdirectory) ih

end Leads

/-! ## What stands in a tree -/

/-- A place that holds one that is around is around as well. -/
theorem isAround_of_isPrefix (hinside : other <+: place) (h : isAround place = true) :
    isAround other = true := by
  rw [isAround, Bool.or_eq_true, beq_iff_eq, List.all_eq_true] at h
  rcases h with rfl | hall
  · have hcases : other = [] ∨ other = top := by
      rcases List.prefix_cons_iff.mp hinside with rfl | ⟨rest, rfl, hrest⟩
      · exact .inl rfl
      · exact .inr (by rw [List.prefix_nil.mp hrest]; rfl)
    rcases hcases with rfl | rfl <;> rfl
  · rw [isAround, Bool.or_eq_true, List.all_eq_true]
    exact .inr fun piece hpiece => hall piece (hinside.subset hpiece)

/-- A place is around, or an entry, or on the way to one. -/
def Reaches (t : Tree) (place : List String) : Prop :=
  isAround place = true ∨ ∃ entry ∈ t.entries, place <+: entry.1

theorem isSome_at?_iff : (t.at? place).isSome ↔ t.Reaches place := by
  rw [at?, Reaches]
  split
  · next found hfound =>
    have hplace : found.1 = place := by simpa using List.find?_some hfound
    exact iff_of_true rfl (.inr ⟨found, List.mem_of_find?_eq_some hfound, hplace ▸ List.prefix_rfl⟩)
  · split
    · next h => exact iff_of_true rfl (by simpa using h)
    · next h => exact iff_of_false Bool.false_ne_true (by simpa using h)

/-- The directories on the way to what stands in a tree stand there too. -/
theorem isSome_at?_of_isPrefix (hinside : other <+: place) (h : (t.at? place).isSome) :
    (t.at? other).isSome := by
  rw [isSome_at?_iff] at h ⊢
  rcases h with haround | ⟨entry, hmem, hentry⟩
  · exact .inl (isAround_of_isPrefix hinside haround)
  · exact .inr ⟨entry, hmem, hinside.trans hentry⟩

theorem isSome_at?_parent (h : (t.at? place).isSome) : (t.at? (parent place)).isSome := by
  rw [parent]
  split
  · exact isSome_at?_iff.mpr (.inl rfl)
  · split
    · next hall =>
      refine isSome_at?_iff.mpr (.inl ?_)
      rw [isAround, List.all_append, hall]
      simp
    · exact isSome_at?_of_isPrefix (List.dropLast_prefix place) h

/-- A walk never leaves the directories of a tree. -/
theorem Leads.isSome_at? (h : Leads t place pieces dir) (hplace : (t.at? place).isSome) :
    (t.at? dir).isSome := by
  induction h with
  | here => exact hplace
  | stay _ _ ih => exact ih hplace
  | up _ ih => exact ih (isSome_at?_parent hplace)
  | down _ _ _ hdirectory _ ih => exact ih (by rw [hdirectory]; rfl)

theorem isSome_at?_startOf (t : Tree) (path : String) : (t.at? (startOf path)).isSome := by
  rw [isSome_at?_iff, startOf]
  split <;> exact .inl rfl

/-! ## Putting a file into a directory -/

theorem find?_put_of_ne (hne : other ≠ place) :
    (t.put place text).entries.find? (·.1 == other) = t.entries.find? (·.1 == other) := by
  rw [put, List.find?_append, List.find?_filter, List.find?_singleton]
  have hnew : ((place == other) = true) = False := by simpa using hne.symm
  simp only [hnew, if_false, Option.or_none]
  congr 1
  funext entry
  by_cases hentry : entry.1 = other
  · simp [hentry, hne]
  · simp [hentry]

/-- A file that is put into a directory needs no new directories. -/
theorem reaches_put_iff (hdir : (t.at? dir).isSome) (hne : other ≠ dir ++ [name]) :
    (t.put (dir ++ [name]) text).Reaches other ↔ t.Reaches other := by
  constructor
  · rintro (haround | ⟨entry, hmem, hinside⟩)
    · exact .inl haround
    rw [put, List.mem_append, List.mem_singleton] at hmem
    rcases hmem with hold | rfl
    · exact .inr ⟨entry, (List.mem_filter.mp hold).1, hinside⟩
    · have hother : other <+: dir := (List.prefix_concat_iff.mp hinside).resolve_left hne
      exact isSome_at?_iff.mp (isSome_at?_of_isPrefix hother hdir)
  · rintro (haround | ⟨entry, hmem, hinside⟩)
    · exact .inl haround
    right
    by_cases hentry : entry.1 = dir ++ [name]
    · exact ⟨(dir ++ [name], .file text.toUTF8), by simp [put], hentry ▸ hinside⟩
    · exact ⟨entry, by simp [put, hmem, hentry], hinside⟩

/-- A file that is put into a directory changes no other place. -/
theorem at?_put_of_ne (hdir : (t.at? dir).isSome) (hne : other ≠ dir ++ [name]) :
    (t.put (dir ++ [name]) text).at? other = t.at? other := by
  rw [at?, at?, find?_put_of_ne hne]
  split
  · rfl
  · congr 1
    simpa [Reaches] using reaches_put_iff hdir hne

/-! ## Writing -/

/-- One tree is another one with a text written to a path: the path leads to the text, which is
read there, and what stands at any place but this one is as it was. -/
def Rewrites (before after : Tree) (path text : String) : Prop :=
  ∃ place, after.find path = .ok (place, .file text.toUTF8) ∧ after.read path = .ok text ∧
    ∀ other, other ≠ place → after.at? other = before.at? other

theorem ne_empty_of_pathFault? (h : pathFault? path = none) : path ≠ "" := by
  rintro rfl
  simp [pathFault?] at h

/-- A file is put into a directory only under a name that no directory has. -/
theorem eq_put_of_writeIn {slash : Bool} (h : t.writeIn dir name slash text = .ok t') :
    staysPut name = false ∧ name ≠ ".." ∧ slash = false ∧
      ¬ maxPieceWidth < name.utf8ByteSize ∧ t.at? (dir ++ [name]) ≠ some .directory ∧
      t' = t.put (dir ++ [name]) text := by
  rw [writeIn] at h
  by_cases hname : (staysPut name || name == ".." || slash) = true
  · rw [if_pos hname] at h
    cases h
  rw [if_neg hname] at h
  by_cases hwidth : maxPieceWidth < name.utf8ByteSize
  · rw [if_pos hwidth] at h
    cases h
  rw [if_neg hwidth] at h
  simp only [Bool.or_eq_true, not_or, Bool.not_eq_true, beq_eq_false_iff_ne] at hname
  split at h
  · cases h
  · next hnot =>
    cases h
    exact ⟨hname.1.1, hname.1.2, hname.2, hwidth, hnot, rfl⟩

/-- A write that succeeds walks along all pieces but the last one and puts the file into the
directory to which they lead. -/
theorem eq_put_of_write (h : t.write path text = .ok t') :
    pathFault? path = none ∧ ∃ init dir name, piecesOf path = init ++ [name] ∧
      Leads t (startOf path) init dir ∧ t.writeIn dir name false text = .ok t' := by
  rw [write] at h
  cases hpath : pathFault? path with
  | some fault =>
    rw [hpath] at h
    cases h
  | none =>
    rw [hpath] at h
    refine ⟨rfl, ?_⟩
    simp only at h
    split at h
    · cases h
    · cases h
    · next dir hwalk =>
      -- The name that is written is the last piece that is not empty.  As there is no slash at the
      -- end, it is the last piece of all.
      obtain ⟨-, -, hslash, -⟩ := eq_put_of_writeIn h
      obtain ⟨init, name, hpieces, hname⟩ :=
        piecesOf_eq_append (ne_empty_of_pathFault? hpath) (by simpa using hslash)
      have hfilter : (piecesOf path).filter (· != "") = init.filter (· != "") ++ [name] := by
        simp [hpieces, hname]
      rw [hfilter, List.dropLast_concat] at hwalk
      rw [hfilter, List.getLast?_concat, Option.getD_some, hslash] at h
      exact ⟨init, dir, name, hpieces, (leads_of_walk hwalk).of_filter, h⟩

theorem rewrites_of_write (h : t.write path text = .ok t') : Rewrites t t' path text := by
  obtain ⟨hpath, init, dir, name, hpieces, hleads, hwriteIn⟩ := eq_put_of_write h
  obtain ⟨hstays, hup, -, hwidth, hnot, rfl⟩ := eq_put_of_writeIn hwriteIn
  have hdir : (t.at? dir).isSome := hleads.isSome_at? (isSome_at?_startOf t path)
  have hframe : ∀ other, other ≠ dir ++ [name] →
      (t.put (dir ++ [name]) text).at? other = t.at? other :=
    fun other hne => at?_put_of_ne hdir hne
  have hfind : (t.put (dir ++ [name]) text).find path =
      .ok (dir ++ [name], .file text.toUTF8) := by
    -- The directories on the way are still there, so the walk takes the same way as before.
    have hleads' : Leads (t.put (dir ++ [name]) text) (startOf path) init dir := by
      refine hleads.mono fun place hplace => ?_
      rw [hframe place (by rintro rfl; exact hnot hplace), hplace]
    rw [find, hpath]
    show walk _ _ _ = _
    rw [hpieces, hleads'.walk_append, walk, if_neg (by simp [hstays]), if_neg hup, if_neg hwidth,
      at?_put]
    rfl
  refine ⟨dir ++ [name], hfind, ?_, hframe⟩
  rw [read, hfind]
  exact decode_toUTF8 text

end Tree

end CallBridge.Files
