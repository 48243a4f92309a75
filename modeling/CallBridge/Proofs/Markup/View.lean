import CallBridge.Markup.Document
import CallBridge.Proofs.Markup.Tree

/-!
# What a reader has read

A `View` is a reader without its lines.  It shows the open elements with their content as trees,
and text that has not become a node is part of the content already, so a view does not change
when text becomes a node.

* `Shows v r` says that the reader `r` looks like `v` from outside;
* `Accepts v ts v'` takes tokens from one view to another;
* `Reads P cs Q` takes characters from readers with one property to readers with another, and
  is put together from single characters (`reads_char`, `Reads.append`).
-/

namespace CallBridge.Markup

/-! ## Views -/

/-- Places where text may wait that is no node yet. -/
def Place.isText : Place → Bool
  | .content | .comment | .cdata | .reference _ => true
  | _ => false

/-- A reader without its lines. -/
structure View where
  scanner : Scanner
  place : Place
  /-- The open elements with what they hold so far, the innermost first. -/
  frames : List (Tag × List Tree)
  root : Option Tree
  settings : Settings
  label : Option String
  marked : Bool
  encoding : Encoding

namespace View

/-- The view with the scanner and the reader at other places. -/
def on (v : View) (scanner : Scanner) (place : Place) : View :=
  { v with scanner := scanner, place := place }

/-- One more tree: the root if no element is open, and a part of the innermost one
otherwise. -/
def add (v : View) (t : Tree) : View :=
  match v.frames with
  | [] => { v with root := some t }
  | (tag, content) :: rest => { v with frames := (tag, content ++ [t]) :: rest }

/-- An element is open, and nothing in it has been read. -/
def enter (v : View) (tag : Tag) : View :=
  { v with frames := (tag, []) :: v.frames }

/-- More trees, in order. -/
def addAll (v : View) (ts : List Tree) : View :=
  ts.foldl add v

@[simp] theorem addAll_cons (v : View) (t : Tree) (ts : List Tree) :
    v.addAll (t :: ts) = (v.add t).addAll ts := rfl

theorem addAll_append (v : View) (ts us : List Tree) :
    v.addAll (ts ++ us) = (v.addAll ts).addAll us :=
  List.foldl_append

theorem add_on (v : View) (s : Scanner) (p : Place) (t : Tree) :
    (v.on s p).add t = (v.add t).on s p := by
  obtain ⟨_, _, frames, _⟩ := v
  cases frames <;> rfl

theorem addAll_on (v : View) (s : Scanner) (p : Place) (ts : List Tree) :
    (v.on s p).addAll ts = (v.addAll ts).on s p := by
  induction ts generalizing v with
  | nil => rfl
  | cons t ts ih => rw [addAll_cons, add_on, ih, addAll_cons]

theorem addAll_of_frames {v : View} {tag : Tag} {content : List Tree}
    {rest : List (Tag × List Tree)} (h : v.frames = (tag, content) :: rest) (ts : List Tree) :
    v.addAll ts = { v with frames := (tag, content ++ ts) :: rest } := by
  induction ts generalizing v content with
  | nil => rw [List.append_nil, ← h]; rfl
  | cons t ts ih =>
    have hadd : v.add t = { v with frames := (tag, content ++ [t]) :: rest } := by
      rw [add, h]
    have hframes : (v.add t).frames = (tag, content ++ [t]) :: rest := by rw [hadd]
    rw [addAll_cons, ih hframes, hadd, List.append_assoc]
    rfl

@[simp] theorem encoding_add (v : View) (t : Tree) : (v.add t).encoding = v.encoding := by
  unfold add
  split <;> rfl

@[simp] theorem settings_add (v : View) (t : Tree) : (v.add t).settings = v.settings := by
  unfold add
  split <;> rfl

theorem frames_add_eq_nil_iff (v : View) (t : Tree) : (v.add t).frames = [] ↔ v.frames = [] := by
  unfold add
  split
  · rename_i h
    simp [h]
  · rename_i h
    simp [h]

@[simp] theorem encoding_addAll (v : View) (ts : List Tree) :
    (v.addAll ts).encoding = v.encoding := by
  induction ts generalizing v with
  | nil => rfl
  | cons t ts ih => rw [addAll_cons, ih, encoding_add]

@[simp] theorem settings_addAll (v : View) (ts : List Tree) :
    (v.addAll ts).settings = v.settings := by
  induction ts generalizing v with
  | nil => rfl
  | cons t ts ih => rw [addAll_cons, ih, settings_add]

theorem frames_addAll_eq_nil_iff (v : View) (ts : List Tree) :
    (v.addAll ts).frames = [] ↔ v.frames = [] := by
  induction ts generalizing v with
  | nil => rfl
  | cons t ts ih => rw [addAll_cons, ih, frames_add_eq_nil_iff]

end View

/-- What an open element holds in nodes. -/
def Frame.trees (f : Frame) : List Tree :=
  Node.treesOfAll f.children.reverse

namespace Reader

/-- The open elements with what they hold.  Text that is no node yet belongs to the innermost
one. -/
def openElements (r : Reader) : List (Tag × List Tree) :=
  match r.frames with
  | [] => []
  | f :: rest =>
    (f.tag, f.trees ++ r.run.reverse.map .char) :: rest.map fun f => (f.tag, f.trees)

theorem openElements_of_run (r : Reader) (hrun : r.run = []) :
    r.openElements = r.frames.map fun f => (f.tag, f.trees) := by
  unfold openElements
  split <;> simp_all

theorem openElements_with (r : Reader) (hrun : r.run = []) (frames : List Frame) :
    ({ r with frames := frames } : Reader).openElements = frames.map fun f => (f.tag, f.trees) :=
  openElements_of_run { r with frames := frames } hrun

/-- The reader without its lines. -/
def view (r : Reader) : View where
  scanner := r.scanner
  place := r.place
  frames := r.openElements
  root := r.root.map Element.tree
  settings := r.settings
  label := r.label
  marked := r.marked
  encoding := r.encoding

end Reader

/-- A reader has the view `v`, no text of an entity waits, and text that is no node yet is
inside an element at a place for text. -/
structure Shows (v : View) (r : Reader) : Prop where
  view : r.view = v
  pending : r.pending = []
  settled : r.run = [] ∨ (r.place.isText = true ∧ r.frames ≠ [])

namespace Shows

variable {v : View} {r : Reader} {place : Place}

theorem place_eq (h : Shows v r) : r.place = v.place :=
  congrArg View.place h.view

theorem settings_eq (h : Shows v r) : r.settings = v.settings :=
  congrArg View.settings h.view

theorem frames_eq_nil_iff (h : Shows v r) : r.frames = [] ↔ v.frames = [] := by
  rw [← h.view, Reader.view, Reader.openElements]
  cases r.frames <;> simp

theorem isOutside_eq (h : Shows v r) : r.isOutside = v.frames.isEmpty := by
  rw [Reader.isOutside, Bool.eq_iff_iff, List.isEmpty_iff, List.isEmpty_iff, h.frames_eq_nil_iff]

theorem isOutside_eq_false (h : Shows v r) (hframes : v.frames ≠ []) : r.isOutside = false := by
  rw [h.isOutside_eq, ← Bool.not_eq_true, List.isEmpty_iff]
  exact hframes

theorem isOutside_eq_true (h : Shows v r) (hframes : v.frames = []) : r.isOutside = true := by
  rw [h.isOutside_eq, List.isEmpty_iff]
  exact hframes

/-- No text waits where none may wait. -/
theorem run_eq_nil (h : Shows v r) (hplace : v.place.isText = false ∨ v.frames = []) :
    r.run = [] := by
  rcases h.settled with hrun | ⟨htext, hframes⟩
  · exact hrun
  · rcases hplace with hplace | hnil
    · rw [h.place_eq, hplace] at htext
      contradiction
    · exact absurd (h.frames_eq_nil_iff.mpr hnil) hframes

theorem goto (h : Shows v r) (hplace : place.isText = true ∨ r.run = []) :
    Shows { v with place := place } { r with place := place } where
  view := by
    rw [← h.view]
    rfl
  pending := h.pending
  settled := by
    rcases h.settled with hrun | ⟨-, hframes⟩
    · exact .inl hrun
    · exact hplace.elim (fun htext => .inr ⟨htext, hframes⟩) .inl

/-- A place where no text waits may be left for any other. -/
theorem leave (h : Shows v r) (hplace : v.place.isText = false) :
    Shows { v with place := place } { r with place := place } :=
  h.goto (.inr (h.run_eq_nil (.inl hplace)))

theorem toContent {scanner : Scanner} (h : Shows (v.on scanner place) r) :
    Shows (v.on scanner .content) { r with place := .content } :=
  h.goto (.inl rfl)

theorem afterColon (h : Shows v r) (colon : Bool) : Shows v { r with afterColon := colon } :=
  ⟨h.view, h.pending, h.settled⟩

theorem announce (h : Shows v r) : Shows v r.announce :=
  ⟨h.view, h.pending, h.settled⟩

theorem deliver (h : Shows v r) : Shows v r.deliver :=
  ⟨h.view, h.pending, h.settled⟩

theorem stage (h : Shows v r) (stage : Stage) : Shows v { r with stage := stage } :=
  ⟨h.view, h.pending, h.settled⟩

theorem begin (h : Shows v r) : Shows v r.begin := by
  unfold Reader.begin
  split
  · exact h.announce.deliver.stage .begun
  · exact h

/-- Text that becomes a node stays where it is. -/
theorem beginMarkup (h : Shows v r) : Shows v r.beginMarkup ∧ r.beginMarkup.run = [] := by
  unfold Reader.beginMarkup
  split
  · rename_i hrun
    exact ⟨h.announce, List.isEmpty_iff.mp hrun⟩
  · have hpending : (r.addChild (.text (String.ofList r.run.reverse))).pending = [] := by
      rw [← h.pending, Reader.addChild]
      split <;> rfl
    refine ⟨⟨?_, hpending, .inl rfl⟩, rfl⟩
    rw [← h.view]
    cases hframes : r.frames with
    | nil => simp [Reader.view, Reader.openElements, Reader.addChild, Reader.announce,
        Reader.deliver, hframes]
    | cons f rest => simp [Reader.view, Reader.openElements, Reader.addChild, Reader.announce,
        Reader.deliver, hframes, Frame.trees, Node.treesOfAll_append]

/-- More text inside an element. -/
theorem add (h : Shows v r) (htext : r.place.isText = true) (hframes : v.frames ≠ [])
    (text : List Char) : Shows (v.addAll (text.map .char)) (r.add text) := by
  have hopen : r.frames ≠ [] := mt h.frames_eq_nil_iff.mp hframes
  obtain ⟨f, rest, heq⟩ := List.exists_cons_of_ne_nil hopen
  have hv : v.frames = (f.tag, f.trees ++ r.run.reverse.map .char) ::
      rest.map fun f => (f.tag, f.trees) := by
    rw [← h.view, Reader.view, Reader.openElements, heq]
  refine ⟨?_, h.pending, .inr ⟨htext, hopen⟩⟩
  rw [View.addAll_of_frames hv, ← h.view]
  simp [Reader.view, Reader.openElements, Reader.add, heq]

theorem write (h : Shows v r) (htext : r.place.isText = true) (hframes : v.frames ≠ [])
    (text : List Char) : Shows (v.addAll (text.map .char)) (r.write text) := by
  unfold Reader.write
  split
  · exact h.announce.add htext hframes text
  · exact h.add htext hframes text

/-- A start tag opens an element. -/
theorem enter (h : Shows v r) (hrun : r.run = []) (tag : Tag) (line : Nat) :
    Shows (v.enter tag) { r with frames := ⟨tag, line, []⟩ :: r.frames } := by
  refine ⟨?_, h.pending, .inl hrun⟩
  have hopen : ({ r with frames := ⟨tag, line, []⟩ :: r.frames } : Reader).openElements =
      (tag, []) :: r.openElements := by
    rw [r.openElements_of_run hrun, r.openElements_with hrun]
    rfl
  rw [← h.view, View.enter, Reader.view, hopen]
  rfl

/-- The innermost element that a view shows is the innermost one of the reader. -/
theorem exists_frame (h : Shows v r) (hrun : r.run = []) {tag : Tag} {content : List Tree}
    {rest : List (Tag × List Tree)} (hframes : v.frames = (tag, content) :: rest) :
    ∃ f fs, r.frames = f :: fs ∧ f.tag = tag ∧ f.trees = content ∧
      Shows { v with frames := rest } { r with frames := fs } := by
  have hopen : r.frames.map (fun f => (f.tag, f.trees)) = (tag, content) :: rest := by
    rw [← r.openElements_of_run hrun, ← hframes, ← h.view]
    rfl
  obtain ⟨f, fs, hfs, hf, hrest⟩ := List.map_eq_cons_iff.mp hopen
  obtain ⟨htag, htrees⟩ := Prod.mk.inj hf
  refine ⟨f, fs, hfs, htag, htrees, ?_, h.pending, .inl hrun⟩
  have hclosed : ({ r with frames := fs } : Reader).openElements = rest := by
    rw [r.openElements_with hrun, hrest]
  rw [← h.view, Reader.view, hclosed]
  rfl

/-- An element that is complete is one more tree. -/
theorem complete (h : Shows v r) (hrun : r.run = []) (e : Element) :
    Shows (v.add e.tree) (r.complete e) := by
  rw [← h.view]
  cases hframes : r.frames with
  | nil =>
    refine ⟨?_, ?_, .inl ?_⟩ <;>
      simp [Reader.complete, Reader.view, Reader.openElements, View.add, hframes, hrun, h.pending]
  | cons f rest =>
    refine ⟨?_, ?_, .inl ?_⟩ <;>
      simp [Reader.complete, Reader.addChild, Reader.view, Reader.openElements, View.add, hframes,
        hrun, h.pending, Frame.trees, Node.treesOfAll_append]

end Shows

end CallBridge.Markup
