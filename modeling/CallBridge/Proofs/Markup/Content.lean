import CallBridge.Proofs.Markup.Attributes
import CallBridge.Proofs.Markup.Passages

/-!
# Reading content

Between tags the readers look like a view (`Between`), whatever part of the text before has
become a node or is held back by the scanner.

* `contentPlace`: inside an element, text may stand;
* `reads_content`: trees written one after the other are added to what is open, in order.
-/

namespace CallBridge.Markup

variable {f : Form} {u v v' : View} {brackets : Nat}

/-! ## Text -/

/-- Tokens that stand for themselves inside an element. -/
def IsContentText : Token → Prop
  | .char c => IsPrintable c
  | .quote _ | .tagClose | .emptyTagClose | .equals | .semicolon => True
  | _ => False

theorem accepts_contentText (hframes : u.frames ≠ []) {t : Token} (ht : IsContentText t)
    (s : Scanner) :
    Accepts (u.on s .content) [t] ((u.addAll (t.text.map .char)).on s .content) := by
  refine .single fun r hr => ?_
  have htext : r.place.isText = true := hr.place_eq ▸ rfl
  have hinside : r.isOutside = false := hr.isOutside_eq_false hframes
  have haccept : r.accept t = .ok (r.write t.text) ∨ r.accept t = .ok (r.add t.text) := by
    rw [Reader.accept, hr.place_eq]
    simp only [View.on, Reader.inContent, hinside, Bool.false_eq_true, if_false]
    cases t with
    | char c => exact .inl (if_pos (isLiteral_of_printable _ ht.low ht.high))
    | semicolon => exact .inr rfl
    | quote | tagClose | emptyTagClose | equals => exact .inl rfl
    | _ => exact absurd ht id
  rw [← View.addAll_on]
  rcases haccept with hwrite | hadd
  · exact ⟨_, hwrite, hr.write htext hframes t.text⟩
  · exact ⟨_, hadd, hr.add htext hframes t.text⟩

/-- Inside an element, text may stand. -/
theorem contentPlace (hframes : u.frames ≠ []) :
    TextPlace (fun text => u.addAll (text.map .char)) (fun _ => .content) IsContentText where
  takes t ht front s := by
    rw [List.map_append, View.addAll_append]
    exact accepts_contentText (mt (View.frames_addAll_eq_nil_iff u _).mp hframes) ht s
  slash := ⟨by decide, by decide⟩
  bracket := ⟨by decide, by decide⟩
  emptyTagClose := trivial

/-- A character that is printable and begins no markup stands for itself. -/
theorem isContentText_plainToken {c : Char} (hprintable : IsPrintable c) (hc : c ≠ '&') :
    IsContentText (Scanner.plainToken c) := by
  unfold Scanner.plainToken
  split
  · trivial
  · simp only [hc, if_false]
    split
    · trivial
    · split
      · trivial
      · split
        · trivial
        · exact hprintable

/-! ## Between markup -/

/-- The readers that look like a view between markup.  Inside an element they may stand behind
a text of which some is held back. -/
def Between (v : View) (brackets : Nat) (r : Reader) : Prop :=
  Shows (v.on (.inside []) .content) r ∨
    ∃ (u : View) (text : List Char), u.frames ≠ [] ∧ v = u.addAll (text.map .char) ∧
      Behind (fun text => u.addAll (text.map .char)) (fun _ => .content) text brackets r

theorem between_of_shows {r : Reader} (h : Shows (v.on (.inside []) .content) r)
    (brackets : Nat) : Between v brackets r :=
  .inl h

theorem Reads.between {P : Reader → Prop} {cs : List Char}
    (h : Reads P cs (Shows (v.on (.inside []) .content))) (brackets : Nat) :
    Reads P cs (Between v brackets) :=
  h.mono fun _ hr => between_of_shows hr brackets

/-- Outside of all elements nothing is held back. -/
theorem Between.shows {r : Reader} (h : Between v brackets r) (hframes : v.frames = []) :
    Shows (v.on (.inside []) .content) r := by
  rcases h with h | ⟨u, text, hopen, rfl, -⟩
  · exact h
  · exact absurd ((View.frames_addAll_eq_nil_iff u _).mp hframes) hopen

/-- Inside an element the readers stand behind a text, if only an empty one. -/
theorem Between.behind {r : Reader} (h : Between v brackets r) (hframes : v.frames ≠ []) :
    ∃ (u : View) (text : List Char), u.frames ≠ [] ∧ v = u.addAll (text.map .char) ∧
      Behind (fun text => u.addAll (text.map .char)) (fun _ => .content) text brackets r := by
  rcases h with h | h
  · exact ⟨v, [], hframes, rfl, behind_of_shows h brackets⟩
  · exact h

/-- Markup begins: what is held back is handed out first. -/
theorem reads_markup {c : Char} (hc : c.toNat < 0x80) {scanner : Scanner} {ts : List Token}
    (hscan : ∀ held ∈ heldRuns,
      (Scanner.inside held).step c = .ok (scanner, held.map .char ++ ts))
    (haccept : Accepts (v.on scanner .content) ts v') :
    Reads (Between v brackets) [c] (Shows v') := by
  rintro r (hr | ⟨u, text, hopen, rfl, hr⟩)
  · exact reads_char (v.holds_of_ascii hc) (hscan [] List.mem_cons_self) haccept r hr
  · exact (contentPlace hopen).reads_flush (fun _ => View.holds_of_ascii hc) hscan haccept r hr

theorem reads_angle (v : View) (brackets : Nat) :
    Reads (Between v brackets) ['<'] (Shows (v.on (.inside ['<']) .content)) :=
  reads_markup (by decide)
    (fun held hheld => by rw [Scanner.step_open hheld, List.append_nil]) (.nil _)

/-- A character that stands for itself. -/
theorem reads_rawChar {c : Char} (hframes : v.frames ≠ []) (hprintable : IsPrintable c)
    (hc : c ∉ ['<', '&']) (hclose : c = '>' → brackets < 2) :
    Reads (Between v brackets) [c]
      (Between (v.add (.char c)) (if c = ']' then brackets + 1 else 0)) := by
  intro r hr
  obtain ⟨u, text, hopen, rfl, hbehind⟩ := hr.behind hframes
  simp only [List.mem_cons, List.not_mem_nil, or_false, not_or] at hc
  obtain ⟨r', htake, hr'⟩ := (contentPlace hopen).reads_raw (fun _ => hprintable.holds) hc.1
    (isContentText_plainToken hprintable hc.2) (fun h => .inl (hclose h)) r hbehind
  refine ⟨r', htake, .inr ⟨u, text ++ [c], hopen, ?_, hr'⟩⟩
  rw [List.map_append, View.addAll_append]
  rfl

/-- A reference to a character. -/
theorem reads_referredChar {c : Char} {ref : List Char} (hframes : v.frames ≠ [])
    (hprintable : IsPrintable c) (href : Refers c ref) (brackets : Nat) :
    Reads (Between v brackets) ('&' :: (ref ++ [';']))
      (Shows ((v.add (.char c)).on (.inside []) .content)) := by
  have hampersand : Reads (Between v brackets) ['&']
      (Shows (v.on (.inside []) (.reference {}))) := by
    refine reads_markup (by decide) (fun held hheld => Scanner.step_plain hheld (by decide))
      (.single fun r hr => ⟨_, ?_, hr.goto (.inl rfl)⟩)
    have hinside : r.isOutside = false := hr.isOutside_eq_false hframes
    rw [Reader.accept, hr.place_eq]
    simp only [View.on, Reader.inContent, hinside]
    rfl
  refine hampersand.cons (reads_reference href hprintable (fun w d hd => ?_) fun w hw => ?_)
  · refine .single fun r hr => ⟨_, ?_, hr.goto (.inl rfl)⟩
    rw [Reader.accept, hr.place_eq]
    simp only [View.on, Reader.inReference, Settings.referenceStep_char hd]
    rfl
  · refine .single fun r hr => ?_
    have htext : r.place.isText = true := hr.place_eq ▸ rfl
    have hadd := (hr.add htext hframes [c]).goto
      (show Place.content.isText = true ∨ (r.add [c]).run = [] from .inl rfl)
    rw [View.addAll_on] at hadd
    refine ⟨_, ?_, hadd⟩
    have hexpand : r.settings.expand w.toList = .ok (.char c) := by
      rw [hr.settings_eq]
      exact hw
    rw [Reader.accept, hr.place_eq]
    simp only [View.on, Reader.inReference, Settings.referenceStep_semicolon hexpand]
    rfl

/-! ## Content -/

/-- Blanks outside of all elements are passed over. -/
theorem reads_outerBlank {c : Char} (hframes : v.frames = []) (hc : isSpace c = true) :
    Reads (Between v brackets) [c] (Shows (v.on (.inside []) .content)) := by
  intro r hr
  refine reads_char (holds_of_isSpace hc) (Scanner.step_space hc) (.single fun r hr => ?_) r
    (hr.shows hframes)
  have houtside : r.isOutside = true := hr.isOutside_eq_true hframes
  refine ⟨_, ?_, hr.begin⟩
  rw [Reader.accept, hr.place_eq]
  change r.inContent (.char c) = _
  rw [Reader.inContent, houtside]
  exact if_pos hc

/-- A start tag up to its end. -/
theorem reads_startTag {name : String} {attributes : List (String × String)} {tag : List Char}
    (hname : IsPlainName name) (hplain : ArePlain attributes)
    (hattributes : WritesAttributes attributes tag) :
    Reads (Shows (v.on (.inside ['<']) .content)) (name.toList ++ tag)
      (fun r => ∃ place, Closes v place (plainTag v name attributes) ∧
        Shows (v.on (.inside []) place) r) :=
  (reads_startName hname v).append
    (reads_attributes name hattributes (show ArePlain ([] ++ attributes) from hplain)
      (closes_startName hname v))

/-- A start tag opens an element. -/
theorem reads_openTag {name : String} {attributes : List (String × String)} {tag : List Char}
    (hname : IsPlainName name) (hplain : ArePlain attributes)
    (hattributes : WritesAttributes attributes tag) :
    Reads (Shows (v.on (.inside ['<']) .content)) (name.toList ++ (tag ++ ['>']))
      (Shows ((v.enter (plainTag v name attributes)).on (.inside []) .content)) := by
  rw [← List.append_assoc]
  refine (reads_startTag hname hplain hattributes).append ?_
  rintro r ⟨place, hcloses, hr⟩
  exact hcloses.reads_tagClose r hr

/-- A tag of an empty element adds it. -/
theorem reads_emptyElement {name : String} {attributes : List (String × String)}
    {tag : List Char} (hname : IsPlainName name) (hplain : ArePlain attributes)
    (hattributes : WritesAttributes attributes tag) :
    Reads (Shows (v.on (.inside ['<']) .content)) (name.toList ++ (tag ++ ['/', '>']))
      (Shows ((v.add (.element name attributes [])).on (.inside []) .content)) := by
  rw [← List.append_assoc]
  refine (reads_startTag hname hplain hattributes).append ?_
  rintro r ⟨place, hcloses, hr⟩
  exact hcloses.reads_emptyTagClose r hr

/-- Trees written one after the other are added to what is open, in order. -/
theorem reads_content {inside : Bool} {trees : List Tree} {cs : List Char}
    (hwritten : Writes f inside brackets trees cs) (hplain : ∀ t ∈ trees, t.IsPlain)
    (hform : v.IsOf f) (hinside : v.frames = [] ↔ inside = false) :
    Reads (Between v brackets) cs (fun r => ∃ brackets', Between (v.addAll trees) brackets' r) := by
  induction hwritten generalizing v with
  | @nil _ brackets => exact (Reads.nil _).mono fun r hr => ⟨brackets, hr⟩
  | @blank brackets trees cs c hc _ ih =>
    exact ((reads_outerBlank (hinside.mpr rfl) hc).between 0).cons (ih hplain hform hinside)
  | @raw brackets trees cs c hc hclose _ ih =>
    obtain ⟨hchar, hrest⟩ := List.forall_mem_cons.mp hplain
    have hprintable : IsPrintable c := hchar.isPrintable
    have hframes : v.frames ≠ [] := mt hinside.mp (by simp)
    have hopen : (v.add (.char c)).frames = [] ↔ true = false :=
      (View.frames_add_eq_nil_iff v _).trans hinside
    exact (reads_rawChar hframes hprintable hc hclose).cons (ih hrest (hform.add _) hopen)
  | @reference brackets trees ref cs c href _ ih =>
    obtain ⟨hchar, hrest⟩ := List.forall_mem_cons.mp hplain
    have hprintable : IsPrintable c := hchar.isPrintable
    have hframes : v.frames ≠ [] := mt hinside.mp (by simp)
    have hopen : (v.add (.char c)).frames = [] ↔ true = false :=
      (View.frames_add_eq_nil_iff v _).trans hinside
    have hfirst := (reads_referredChar hframes hprintable href brackets).between 0
    have hwhole := hfirst.append (ih hrest (hform.add _) hopen)
    rw [View.addAll_cons]
    simpa only [List.cons_append, List.append_assoc, List.nil_append] using hwhole
  | @cdata brackets trees text cs hfree _ ih =>
    rw [List.forall_mem_append] at hplain
    obtain ⟨hchars, hrest⟩ := hplain
    have hprintable : ∀ c ∈ text, IsPrintable c := fun c hc =>
      (hchars (.char c) (List.mem_map_of_mem hc)).isPrintable
    have hframes : v.frames ≠ [] := mt hinside.mp (by simp)
    have hopen : (v.addAll (text.map .char)).frames = [] ↔ true = false :=
      (View.frames_addAll_eq_nil_iff v _).trans hinside
    have hfirst := (reads_cdata hframes hfree hprintable).between 0
    have hwhole := (reads_angle v brackets).cons (hfirst.append (ih hrest (hform.addAll _) hopen))
    rw [View.addAll_append]
    simpa only [Token.text, List.cons_append, List.append_assoc, List.nil_append] using hwhole
  | @comment inside brackets trees body cs hbody _ ih =>
    have hfirst := (reads_comment hform hbody).between 0
    have hwhole := (reads_angle v brackets).cons (hfirst.append (ih hplain hform hinside))
    simpa only [Token.text, List.cons_append, List.append_assoc, List.nil_append] using hwhole
  | @instruction inside brackets trees text cs htext _ ih =>
    obtain ⟨rest, rfl, hread⟩ := reads_instruction hform htext
    exact (reads_angle v brackets).cons ((hread.between 0).append (ih hplain hform hinside))
  | @element inside brackets trees name attributes content tag inner gap cs hattributes _ hgap _
      ihcontent ih =>
    obtain ⟨helement, hrest⟩ := List.forall_mem_cons.mp hplain
    cases helement with
    | element hname hattrs hcontent =>
      have hopen : (v.enter (plainTag v name attributes)).frames = [] ↔ true = false :=
        iff_of_false (List.cons_ne_nil _ _) (by decide)
      have hstart := (reads_openTag (v := v) hname hattrs hattributes).between 0
      have hinner := ihcontent hcontent (hform.enter _) hopen
      have hend := (reads_endTag (v := v) hname attributes content hgap).between 0
      have hbehind := ih hrest (hform.add (.element name attributes content))
        ((View.frames_add_eq_nil_iff v _).trans hinside)
      have hwhole := (reads_angle v brackets).cons (hstart.append (hinner.append
        ((Reads.of_forall (reads_angle _)).cons (hend.append hbehind))))
      rw [View.addAll_cons]
      simpa only [List.cons_append, List.append_assoc, List.nil_append] using hwhole
  | @empty inside brackets trees name attributes tag cs hattributes _ ih =>
    obtain ⟨helement, hrest⟩ := List.forall_mem_cons.mp hplain
    cases helement with
    | element hname hattrs _ =>
      have hfirst := (reads_emptyElement (v := v) hname hattrs hattributes).between 0
      have hbehind := ih hrest (hform.add (.element name attributes []))
        ((View.frames_add_eq_nil_iff v _).trans hinside)
      have hwhole := (reads_angle v brackets).cons (hfirst.append hbehind)
      rw [View.addAll_cons]
      simpa only [List.cons_append, List.append_assoc, List.nil_append] using hwhole

end CallBridge.Markup
