import CallBridge.Proofs.Markup.TextRuns

/-!
# Reading tags

* `reads_startName` reads the name of a start tag, `reads_attributes` what follows it, and
  `reads_tagClose` and `reads_emptyTagClose` its end;
* `reads_endTag` reads an end tag, which completes the innermost open element.

A start tag may end behind its name, behind blanks and behind an attribute.  `Closes` covers
the three places: the end of the tag and a blank are taken alike there.
-/

namespace CallBridge.Markup

/-! ## Scanning tags -/

namespace Scanner

theorem step_isAlphanum {c : Char} (hc : c.isAlphanum = true) :
    (inside []).step c = .ok (inside [], [.char c]) := by
  rw [step_plain List.mem_cons_self (not_mem_of_isAlphanum (by decide) hc),
    plainToken_eq_char (not_mem_of_isAlphanum (by decide) hc)]
  rfl

theorem step_space {c : Char} (hc : isSpace c = true) :
    (inside []).step c = .ok (inside [], [.char c]) := by
  rcases eq_of_isSpace hc with rfl | rfl | rfl | rfl <;> rfl

/-- A scanner that hands out letters, digits, blanks and the signs of a value one by one, as it
does in tags and in instructions. -/
structure Passes (s : Scanner) : Prop where
  alphanum : ∀ c, c.isAlphanum = true → s.step c = .ok (s, [.char c])
  space : ∀ c, isSpace c = true → s.step c = .ok (s, [.char c])
  equals : s.step '=' = .ok (s, [.equals])
  quote : ∀ q : Quote, s.step q.char = .ok (s, [.quote q])

theorem passes_inside : (inside []).Passes where
  alphanum _ := step_isAlphanum
  space _ := step_space
  equals := rfl
  quote q := by cases q <;> rfl

theorem step_tagClose : (inside []).step '>' = .ok (inside [], [.tagClose]) := rfl

theorem step_emptyTagClose : (inside ['/']).step '>' = .ok (inside [], [.emptyTagClose]) := rfl

theorem step_endTagOpen : (inside ['<']).step '/' = .ok (inside [], [.endTagOpen]) := rfl

end Scanner

/-! ## Names -/

theorem width_eq_length {cs : List Char} (hcs : ∀ c ∈ cs, c.toNat < 0x80) :
    Text.width cs = cs.length := by
  induction cs with
  | nil => rfl
  | cons c cs ih =>
    obtain ⟨hc, hrest⟩ := List.forall_mem_cons.mp hcs
    have hsize : c.utf8Size = 1 := if_pos (Nat.le_of_lt_succ hc)
    rw [Text.width, hsize, ih hrest, List.length_cons, Nat.add_comm]

/-- A plain name takes one more character at each of its characters. -/
theorem IsPlainName.width_le {name : String} (h : IsPlainName name) {front : List Char} {c : Char}
    (hfront : front ++ [c] <+: name.toList) : (Word.ofList front).width ≤ maxNameWidth := by
  have hascii : ∀ d ∈ front, d.toNat < 0x80 := fun d hd =>
    toNat_lt_of_isAlphanum (h.isAlphanum d (hfront.subset (List.mem_append_left _ hd)))
  have hlength := hfront.length_le
  have hbound := h.length_le
  rw [List.length_append, List.length_singleton] at hlength
  rw [Word.width_ofList, width_eq_length hascii]
  omega

theorem IsPlainName.class_eq {name : String} (h : IsPlainName name) {front : List Char} {c : Char}
    (hfront : front ++ [c] <+: name.toList) :
    (if (Word.ofList front).isEmpty then isNameStart c else isNameChar c) = true := by
  rw [Word.isEmpty_ofList]
  cases front with
  | nil =>
    obtain ⟨rest, hrest⟩ := hfront
    have halpha := h.isAlpha_head c (hrest ▸ rfl)
    simpa using isNameStart_of_isAlpha halpha
  | cons d front =>
    have hmem := hfront.subset (List.mem_append_right _ List.mem_cons_self)
    simpa using isNameChar_of_isAlphanum (h.isAlphanum c hmem)

theorem IsPlainName.ofChars?_eq {name : String} (h : IsPlainName name) :
    QName.ofChars? (Word.ofList name.toList).toList = some ⟨none, name⟩ := by
  have hcolon : ':' ∉ name.toList := fun hmem => absurd (h.isAlphanum _ hmem) (by decide)
  rw [Word.toList_ofList]
  simp [QName.ofChars?, hcolon, h.ne_nil]

theorem IsPlainName.holds {name : String} (h : IsPlainName name) {v : View} :
    ∀ c ∈ name.toList, v.Holds c := fun c hc =>
  v.holds_of_ascii (toNat_lt_of_isAlphanum (h.isAlphanum c hc))

namespace Reader

/-- A character of a name is taken as one more. -/
theorem readName_char (r : Reader) {name : Word} {c : Char} (ends : List Token)
    (more : Word → Place) (done : Reader → QName → Except Fault Reader) (hcolon : c ≠ ':')
    (hclass : (if name.isEmpty then isNameStart c else isNameChar c) = true)
    (hwidth : name.width ≤ maxNameWidth) :
    ∃ colon, r.readName name ends (.char c) more done =
      .ok { r with afterColon := colon, place := more (name.push c) } := by
  refine ⟨r.afterColon && decide (1 < name.width), ?_⟩
  have hstep : ∀ colon, nameStep colon name ends (.char c) = .ok (.more (name.push c)) := by
    intro colon
    simp only [nameStep, hcolon, if_false, hclass, if_true, Nat.not_lt.mpr hwidth]
  simp only [readName, hstep]
  rfl

/-- A blank and a delimiter that may follow complete a name. -/
theorem readName_end (r : Reader) {name : Word} {qname : QName} {ends : List Token} {t : Token}
    (more : Word → Place) (done : Reader → QName → Except Fault Reader)
    (hends : ∀ c, Token.char c ∉ ends) (hend : t.isBlank = true ∨ t ∈ ends)
    (hname : QName.ofChars? name.toList = some qname) :
    ∃ colon, r.readName name ends t more done = done { r with afterColon := colon } qname := by
  refine ⟨r.afterColon && decide (1 < name.width), ?_⟩
  have hword : NameStep.ofWord name = .ok (.done qname) := by rw [NameStep.ofWord, hname]
  have hstep : ∀ colon, nameStep colon name ends t = .ok (.done qname) := by
    intro colon
    cases t with
    | char c =>
      have hspace : isSpace c = true := hend.resolve_right (hends c)
      have hcolon : c ≠ ':' := by
        rintro rfl
        exact absurd hspace (by decide)
      simp [nameStep, hcolon, not_isNameStart_of_isSpace hspace, not_isNameChar_of_isSpace hspace,
        hspace, hword]
    | _ =>
      have hmem := hend.resolve_left (by simp [Token.isBlank])
      simp [nameStep, hmem, hword]
  simp only [readName, hstep]

end Reader

/-- The characters of a name are read one by one, where a place takes them as `readName` does. -/
theorem reads_name {scanner : Scanner} (hscan : scanner.Passes) {name : String}
    (hname : IsPlainName name) {v : View} (place : Word → Place)
    (hplace : ∀ w, (place w).isText = false)
    (haccept : ∀ (r : Reader) w c, r.place = place w →
      ∃ ends done, r.accept (.char c) = r.readName w ends (.char c) place done)
    {start rest : List Char} (hsplit : start ++ rest = name.toList) :
    Reads (Shows (v.on scanner (place (.ofList start)))) rest
      (Shows (v.on scanner (place (.ofList name.toList)))) := by
  have hmem : ∀ c ∈ rest, c ∈ name.toList := fun c hc =>
    hsplit ▸ List.mem_append_right _ hc
  rw [← hsplit]
  refine reads_word (fun c hc => hname.holds c (hmem c hc))
    (fun c hc => hscan.alphanum c (hname.isAlphanum c (hmem c hc))) start
    fun front c hfront => .single fun r hr => ?_
  have hwhole : (start ++ front) ++ [c] <+: name.toList := by
    rw [← hsplit, List.append_assoc]
    exact (List.prefix_append_right_inj start).mpr hfront
  have hcolon : c ≠ ':' := by
    rintro rfl
    have hin := hmem _ (hfront.subset (List.mem_append_right _ List.mem_cons_self))
    exact absurd (hname.isAlphanum _ hin) (by decide)
  obtain ⟨ends, done, hread⟩ := haccept r _ c hr.place_eq
  obtain ⟨colon, hmore⟩ := r.readName_char ends place done hcolon (hname.class_eq hwhole)
    (hname.width_le hwhole)
  refine ⟨_, by rw [hread, hmore], ?_⟩
  exact (hr.afterColon colon).leave (hplace _)

/-! ## Blanks -/

/-- Blanks are read where each of them leaves the reader at its place. -/
theorem reads_blanks {scanner : Scanner} (hscan : scanner.Passes) {gap : List Char}
    (hgap : IsGap gap) {v : View} {place : Place}
    (haccept : ∀ c, isSpace c = true →
      Accepts (v.on scanner place) [.char c] (v.on scanner place)) :
    Reads (Shows (v.on scanner place)) gap (Shows (v.on scanner place)) := by
  induction gap with
  | nil => exact .nil _
  | cons c gap ih =>
    obtain ⟨hc, hrest⟩ := List.forall_mem_cons.mp hgap
    exact (reads_char (holds_of_isSpace hc) (hscan.space c hc) (haccept c hc)).cons (ih hrest)

/-! ## Start tags -/

/-- The scopes that hold where a view stands. -/
def View.scopes (v : View) : List String :=
  match v.frames with
  | [] => []
  | (tag, _) :: _ => tag.scopes

/-- A start tag with plain names. -/
def plainTag (v : View) (name : String) (attributes : List (String × String)) : Tag where
  name := ⟨none, name⟩
  attributes := attributes.reverse.map fun a => (⟨none, a.1⟩, a.2)
  scopes := v.scopes

/-- The tree of an element with a start tag and content. -/
def Tag.tree (tag : Tag) (content : List Tree) : Tree :=
  .element tag.name.base (tag.attributes.reverse.map fun a => (a.1.base, a.2)) content

theorem tree_plainTag (v : View) (name : String) (attributes : List (String × String))
    (content : List Tree) :
    (plainTag v name attributes).tree content = .element name attributes content := by
  simp [Tag.tree, plainTag, ← List.map_reverse, Function.comp_def]

theorem Shows.scopes_eq {v : View} {r : Reader} (h : Shows v r) : r.scopes = v.scopes := by
  rw [← h.view, View.scopes, Reader.view, Reader.openElements, Reader.scopes]
  cases r.frames <;> rfl

theorem accepts_tagOpen (v : View) (s : Scanner) :
    Accepts (v.on s .content) [.tagOpen] (v.on s (.startName {})) := by
  refine .single fun r hr => ?_
  have haccept : r.accept .tagOpen = r.beginTag := by
    rw [Reader.accept, hr.place_eq]
    change r.inContent .tagOpen = r.beginTag
    exact ite_self r.beginTag
  obtain ⟨hbegun, hrun⟩ := hr.beginMarkup
  refine ⟨_, haccept, ?_⟩
  split
  · exact (hbegun.deliver.goto (.inr hrun)).stage .rooted
  · exact (hbegun.goto (.inr hrun)).stage .rooted

theorem Scanner.step_firstName {c : Char} (hc : c.isAlphanum = true) :
    (inside ['<']).step c = .ok (inside [], [.tagOpen, .char c]) := by
  have hstart : ((inside ['<']).on (inside ['<']).home).start c = .ok (inside [], [.char c]) :=
    step_isAlphanum hc
  have hmark : c ∉ ['?', '/', '!'] := not_mem_of_isAlphanum (by decide) hc
  simp only [List.mem_cons, List.not_mem_nil, or_false, not_or] at hmark
  change afterAngle (inside ['<']) c = _
  rw [afterAngle, if_neg hmark.1, if_neg hmark.2.1, if_neg hmark.2.2,
    if_pos (.inr (isNameChar_of_isAlphanum hc)), release, hstart]
  rfl

/-- The name of a start tag is read behind its opening angle. -/
theorem reads_startName {name : String} (hname : IsPlainName name) (v : View) :
    Reads (Shows (v.on (.inside ['<']) .content)) name.toList
      (Shows (v.on (.inside []) (.startName (.ofList name.toList)))) := by
  obtain ⟨c, cs, hcs⟩ := List.exists_cons_of_ne_nil hname.ne_nil
  have hc : c.isAlphanum = true := hname.isAlphanum c (hcs ▸ List.mem_cons_self)
  have hfront : [] ++ [c] <+: name.toList := hcs ▸ by simp
  have hcolon : c ≠ ':' := by
    rintro rfl
    exact absurd hc (by decide)
  have hfirst : Accepts (v.on (.inside []) (.startName {})) [.char c]
      (v.on (.inside []) (.startName (.ofList [c]))) := by
    refine .single fun r hr => ?_
    have haccept : r.accept (.char c) = r.inStartName {} (.char c) := by
      rw [Reader.accept, hr.place_eq]
      rfl
    obtain ⟨colon, hmore⟩ := r.readName_char _ _ _ hcolon (hname.class_eq hfront)
      (Nat.zero_le _)
    exact ⟨_, haccept.trans hmore, (hr.afterColon colon).leave rfl⟩
  have hhead := reads_char (hname.holds c (hcs ▸ List.mem_cons_self))
    (Scanner.step_firstName hc) ((accepts_tagOpen v (.inside [])).cons hfirst)
  have htail : Reads (Shows (v.on (.inside []) (.startName (.ofList [c])))) cs
      (Shows (v.on (.inside []) (.startName (.ofList name.toList)))) :=
    reads_name Scanner.passes_inside hname .startName (fun _ => rfl)
      (fun r w d hplace => ⟨_, _, by rw [Reader.accept, hplace]; rfl⟩) hcs.symm
  conv => arg 2; rw [hcs]
  exact hhead.cons htail

/-- The start tag `tag` may end at a place: there, the end of the tag and a blank are taken as
behind any attribute. -/
structure Closes (v : View) (place : Place) (tag : Tag) : Prop where
  not_isText : place.isText = false
  accept_eq : ∀ s r t, Shows (v.on s place) r → t.isBlank = true ∨ t ∈ [.tagClose, .emptyTagClose] →
    ∃ r', Shows (v.on s place) r' ∧ r.accept t = r'.closeStartTag tag t

theorem closes_startName {name : String} (hname : IsPlainName name) (v : View) :
    Closes v (.startName (.ofList name.toList)) (plainTag v name []) := by
  refine ⟨rfl, fun s r t hr ht => ?_⟩
  have haccept : r.accept t = r.inStartName (.ofList name.toList) t := by
    rw [Reader.accept, hr.place_eq]
    rfl
  have helement : (⟨none, name⟩ : QName).isElementName = true := rfl
  obtain ⟨colon, hdone⟩ := r.readName_end _ _ (by simp) ht hname.ofChars?_eq
  refine ⟨_, hr.afterColon colon, ?_⟩
  rw [haccept, Reader.inStartName, hdone, if_pos helement, (hr.afterColon colon).scopes_eq]
  rfl

theorem closes_gap (v : View) (tag : Tag) : Closes v (.startTag tag .gap) tag := by
  refine ⟨rfl, fun s r t hr ht => ⟨r, hr, ?_⟩⟩
  rw [Reader.accept, hr.place_eq]
  change r.inStartTag tag .gap t = _
  cases t with
  | char c =>
    have hspace : isSpace c = true := ht.resolve_right (by simp)
    simp [Reader.inStartTag, not_isNameStart_of_isSpace hspace]
  | _ => rfl

theorem closes_closing (v : View) (tag : Tag) : Closes v (.startTag tag .closing) tag :=
  ⟨rfl, fun s r t hr _ => ⟨r, hr, by rw [Reader.accept, hr.place_eq]; rfl⟩⟩

theorem Closes.accepts_blank {v : View} {place : Place} {tag : Tag} (h : Closes v place tag)
    {c : Char} (hc : isSpace c = true) (s : Scanner) :
    Accepts (v.on s place) [.char c] (v.on s (.startTag tag .gap)) := by
  refine .single fun r hr => ?_
  obtain ⟨r', hr', haccept⟩ := h.accept_eq s r (.char c) hr (.inl hc)
  refine ⟨_, ?_, hr'.leave h.not_isText⟩
  rw [haccept, Reader.closeStartTag, if_pos hc]
  rfl

/-- Behind one or more blanks, the next attribute may begin. -/
theorem Closes.reads_gap {v : View} {place : Place} {tag : Tag} (h : Closes v place tag)
    {gap : List Char} (hne : gap ≠ []) (hgap : IsGap gap) :
    Reads (Shows (v.on (.inside []) place)) gap
      (Shows (v.on (.inside []) (.startTag tag .gap))) := by
  obtain ⟨c, gap, rfl⟩ := List.exists_cons_of_ne_nil hne
  obtain ⟨hc, hrest⟩ := List.forall_mem_cons.mp hgap
  have hfirst := reads_char (holds_of_isSpace hc) (Scanner.step_space hc) (h.accepts_blank hc _)
  exact hfirst.cons (reads_blanks Scanner.passes_inside hrest fun d hd =>
    (closes_gap v tag).accepts_blank hd _)

/-- No name in a start tag has a scope. -/
theorem all_isBound_plainTag (v : View) (name : String) (attributes : List (String × String))
    (scopes : List String) :
    ((plainTag v name attributes).name.scope ::
      (plainTag v name attributes).attributes.reverse.map (·.1.scope)).all (isBound scopes) =
      true := by
  simp [plainTag, isBound, ← List.map_reverse]

theorem Closes.reads_tagClose {v : View} {place : Place} {name : String}
    {attributes : List (String × String)} (h : Closes v place (plainTag v name attributes)) :
    Reads (Shows (v.on (.inside []) place)) ['>']
      (Shows ((v.enter (plainTag v name attributes)).on (.inside []) .content)) := by
  refine reads_char (v.holds_of_ascii (by decide)) Scanner.step_tagClose (.single fun r hr => ?_)
  obtain ⟨r', hr', haccept⟩ := h.accept_eq _ r .tagClose hr (.inr (by simp))
  have hrun := hr'.run_eq_nil (.inl h.not_isText)
  have henter := hr'.deliver.toContent.enter hrun
    (plainTag v name attributes) r'.deliver.lines.current
  refine ⟨_, ?_, henter⟩
  rw [haccept, Reader.closeStartTag, Reader.endStartTag,
    if_pos (all_isBound_plainTag v name attributes _)]
  rfl

theorem Closes.reads_emptyTagClose {v : View} {place : Place} {name : String}
    {attributes : List (String × String)} (h : Closes v place (plainTag v name attributes)) :
    Reads (Shows (v.on (.inside []) place)) ['/', '>']
      (Shows ((v.add (.element name attributes [])).on (.inside []) .content)) := by
  have hslash : Reads (Shows (v.on (.inside []) place)) ['/']
      (Shows (v.on (.inside ['/']) place)) :=
    reads_char (v.holds_of_ascii (by decide)) (Scanner.step_slash List.mem_cons_self) (.nil _)
  refine hslash.cons (reads_char (v.holds_of_ascii (by decide)) Scanner.step_emptyTagClose
    (.single fun r hr => ?_))
  obtain ⟨r', hr', haccept⟩ := h.accept_eq _ r .emptyTagClose hr (.inr (by simp))
  have hrun := hr'.run_eq_nil (.inl h.not_isText)
  have hcomplete := hr'.deliver.toContent.complete hrun
    ((plainTag v name attributes).element r'.deliver.lines.current [])
  have htree : ((plainTag v name attributes).element r'.deliver.lines.current []).tree =
      .element name attributes [] := tree_plainTag v name attributes []
  rw [htree, View.add_on] at hcomplete
  refine ⟨_, ?_, hcomplete⟩
  rw [haccept, Reader.closeStartTag, Reader.endStartTag,
    if_pos (all_isBound_plainTag v name attributes _)]
  rfl

/-! ## End tags -/

theorem View.addAll_enter (v : View) (tag : Tag) (content : List Tree) :
    (v.enter tag).addAll content = { v with frames := (tag, content) :: v.frames } := by
  have hframes : (v.enter tag).frames = (tag, []) :: v.frames := rfl
  rw [addAll_of_frames hframes]
  rfl

theorem accepts_endTagOpen {v : View} (hframes : v.frames ≠ []) (s : Scanner) :
    Accepts (v.on s .content) [.endTagOpen] (v.on s (.endName {})) := by
  refine .single fun r hr => ?_
  have hinside : r.isOutside = false := hr.isOutside_eq_false hframes
  obtain ⟨hbegun, hrun⟩ := hr.beginMarkup
  refine ⟨_, ?_, hbegun.goto (.inr hrun)⟩
  rw [Reader.accept, hr.place_eq]
  change r.inContent .endTagOpen = _
  rw [Reader.inContent, hinside]
  rfl

/-- The end tag of the innermost open element completes it. -/
theorem Shows.endElement {v : View} {name : String} {attributes : List (String × String)}
    {content : List Tree} {s : Scanner} {place : Place} {r : Reader}
    (hr : Shows (((v.enter (plainTag v name attributes)).addAll content).on s place) r)
    (hplace : place.isText = false) :
    ∃ r', r.endElement ⟨none, name⟩ = .ok r' ∧
      Shows ((v.add (.element name attributes content)).on s .content) r' := by
  rw [View.addAll_enter] at hr
  have hrun := hr.run_eq_nil (.inl hplace)
  obtain ⟨f, fs, hfs, htag, htrees, hrest⟩ := hr.exists_frame hrun rfl
  have htree : (f.tag.element f.line f.children).tree = .element name attributes content := by
    rw [← tree_plainTag v, ← htag, ← htrees]
    rfl
  have hname : f.tag.name = ⟨none, name⟩ := by rw [htag]; rfl
  have hcomplete := Shows.complete (v := v.on s .content)
    (r := { r.deliver with place := .content, frames := fs })
    ⟨congrArg (fun v => { v with place := .content }) hrest.view, hr.pending, .inl hrun⟩ hrun
    (f.tag.element f.line f.children)
  rw [htree, View.add_on] at hcomplete
  refine ⟨_, ?_, hcomplete⟩
  rw [Reader.endElement, hfs]
  simp only [hname, if_true]

theorem accepts_endName {name : String} (hname : IsPlainName name) {v v' : View} {s : Scanner}
    {t : Token} (ht : t.isBlank = true ∨ t = .tagClose)
    (haccept : ∀ r, Shows (v.on s (.endName (.ofList name.toList))) r →
      ∃ r', r.inEndTag ⟨none, name⟩ t = .ok r' ∧ Shows v' r') :
    Accepts (v.on s (.endName (.ofList name.toList))) [t] v' := by
  refine .single fun r hr => ?_
  have hend : t.isBlank = true ∨ t ∈ [Token.tagClose] := ht.imp_right List.mem_singleton.mpr
  have helement : (⟨none, name⟩ : QName).isElementName = true := rfl
  obtain ⟨colon, hdone⟩ := r.readName_end .endName
    (fun r name => if name.isElementName then r.inEndTag name t else r.fail .badName) (by simp) hend
    hname.ofChars?_eq
  obtain ⟨r', hr', hshows⟩ := haccept _ (hr.afterColon colon)
  refine ⟨r', ?_, hshows⟩
  rw [Reader.accept, hr.place_eq]
  rw [if_pos helement, hr'] at hdone
  exact hdone

/-- An end tag is read behind its opening angle. -/
theorem reads_endTag {v : View} {name : String} (hname : IsPlainName name)
    (attributes : List (String × String)) (content : List Tree) {gap : List Char}
    (hgap : IsGap gap) :
    Reads (Shows (((v.enter (plainTag v name attributes)).addAll content).on (.inside ['<'])
        .content)) ('/' :: (name.toList ++ (gap ++ ['>'])))
      (Shows ((v.add (.element name attributes content)).on (.inside []) .content)) := by
  have hframes : ((v.enter (plainTag v name attributes)).addAll content).frames ≠ [] := by
    rw [View.addAll_enter]
    exact List.cons_ne_nil _ _
  generalize hw : (v.enter (plainTag v name attributes)).addAll content = w at hframes ⊢
  have hopen : Reads (Shows (w.on (.inside ['<']) .content)) ['/']
      (Shows (w.on (.inside []) (.endName (.ofList [])))) :=
    reads_char (w.holds_of_ascii (by decide)) Scanner.step_endTagOpen (accepts_endTagOpen hframes _)
  have hread : Reads (Shows (w.on (.inside []) (.endName (.ofList [])))) name.toList
      (Shows (w.on (.inside []) (.endName (.ofList name.toList)))) :=
    reads_name Scanner.passes_inside hname .endName (fun _ => rfl)
      (fun r u d hplace => ⟨_, _, by rw [Reader.accept, hplace]; rfl⟩) (List.nil_append _)
  have hclose : Reads (Shows (w.on (.inside []) (.endName (.ofList name.toList)))) (gap ++ ['>'])
      (Shows ((v.add (.element name attributes content)).on (.inside []) .content)) := by
    cases gap with
    | nil =>
      refine reads_char (w.holds_of_ascii (by decide)) Scanner.step_tagClose
        (accepts_endName hname (.inr rfl) fun r hr => ?_)
      rw [← hw] at hr
      exact hr.endElement rfl
    | cons c gap =>
      obtain ⟨hc, hrest⟩ := List.forall_mem_cons.mp hgap
      have hstep : ∀ (r : Reader) d, isSpace d = true →
          r.inEndTag ⟨none, name⟩ (.char d) = r.goto (.endTag ⟨none, name⟩) := by
        intro r d hd
        rw [Reader.inEndTag, if_neg (by simp)]
        exact if_pos hd
      have hblank : Reads (Shows (w.on (.inside []) (.endName (.ofList name.toList)))) [c]
          (Shows (w.on (.inside []) (.endTag ⟨none, name⟩))) :=
        reads_char (holds_of_isSpace hc) (Scanner.step_space hc)
          (accepts_endName hname (.inl hc) fun r hr =>
            ⟨_, hstep r c hc, hr.leave rfl⟩)
      have hblanks : Reads (Shows (w.on (.inside []) (.endTag ⟨none, name⟩))) gap
          (Shows (w.on (.inside []) (.endTag ⟨none, name⟩))) :=
        reads_blanks Scanner.passes_inside hrest fun d hd => .single fun r hr =>
          ⟨_, by rw [Reader.accept, hr.place_eq]; exact hstep r d hd,
            hr.leave rfl⟩
      have hend : Reads (Shows (w.on (.inside []) (.endTag ⟨none, name⟩))) ['>']
          (Shows ((v.add (.element name attributes content)).on (.inside []) .content)) := by
        refine reads_char (w.holds_of_ascii (by decide)) Scanner.step_tagClose
          (.single fun r hr => ?_)
        rw [Reader.accept, hr.place_eq]
        rw [← hw] at hr
        exact hr.endElement rfl
      exact hblank.cons (hblanks.append hend)
  exact hopen.cons (hread.append hclose)

end CallBridge.Markup
