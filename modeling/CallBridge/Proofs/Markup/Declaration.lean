import CallBridge.Proofs.Markup.Attributes
import CallBridge.Proofs.Markup.Passages

/-!
# Reading the declaration of a document

The declaration is an instruction to the scanner.  Its items are read one behind the other: a
word, an equals sign and a value between quotes.

* `opened revised label encoding`: the view at the top of a document that declares these;
* `reads_firstItem` and `reads_nextItem`: one item;
* `reads_declaration`: a whole declaration.
-/

namespace CallBridge.Markup

variable {v : View} {r : Reader} {item last : Item}

/-- The scanner between two characters of an instruction. -/
def instructionScanner : Scanner :=
  Passage.instruction.scanner []

theorem passes_instructionScanner : instructionScanner.Passes where
  alphanum _ hc := Scanner.step_instruction (not_mem_of_isAlphanum (by decide) hc)
  space c hc := by rcases eq_of_isSpace hc with rfl | rfl | rfl | rfl <;> rfl
  equals := rfl
  quote q := by cases q <;> rfl

/-! ## The top of a document -/

/-- A document of which nothing but the declaration has been read. -/
def opened (revised : Bool) (label : Option String) (encoding : Encoding) : View where
  scanner := {}
  place := .content
  frames := []
  root := none
  settings := { revised := revised }
  label := label
  marked := false
  encoding := encoding

theorem shows_opened : Shows ((opened false none .utf8).on (.inside []) .content) {} :=
  ⟨rfl, rfl, .inl rfl⟩

theorem isOf_opened (f : Form) (label : Option String) :
    (opened f.revised label f.encoding).IsOf f :=
  ⟨rfl, rfl⟩

theorem isTargetName_xml : IsTargetName {} ['x', 'm', 'l'] where
  ne_nil := List.cons_ne_nil _ _
  isNameStart c hc := by rw [← Option.some.inj hc]; rfl
  isNameChar := Text.forall_mem_of_all (by decide)
  encoded _ _ := .inl rfl
  width_le := by decide

/-- The name `xml` at the top of a document leaves it at its start. -/
theorem stage_behindXml :
    (({} : Reader).takeAll ['<', '?', 'x', 'm', 'l']).toOption.map Reader.stage = some .start := by
  decide +kernel

/-- A blank behind the name `xml` begins the declaration, as nothing has been read before. -/
theorem reads_declarationOpen {blank : Char} (hblank : isSpace blank = true) :
    Reads (fun r => r = {}) (['<', '?', 'x', 'm', 'l'] ++ [blank])
      (Shows ((opened false none .utf8).on instructionScanner (.declaration (.gap none)))) := by
  rintro _ rfl
  have hname : Reads (Shows ((opened false none .utf8).on (.inside []) .content))
      ['<', '?', 'x', 'm', 'l']
      (Shows ((opened false none .utf8).on instructionScanner
        (.target (.ofList ['x', 'm', 'l'])))) :=
    (reads_held (by decide) rfl).cons (reads_target (isOf_opened {} none) isTargetName_xml)
  obtain ⟨r, hread, hr⟩ := hname _ shows_opened
  have hstage : r.stage = .start := by
    have h := stage_behindXml
    rw [hread] at h
    exact Option.some.inj h
  have hbehind := hr.behind instructionScanner blank
  have haccept : (r.behind instructionScanner blank).accept (.char blank) =
      (r.behind instructionScanner blank).goto (.declaration (.gap none)) := by
    rw [Reader.accept, hbehind.place_eq]
    change Reader.inTarget _ (.ofList ['x', 'm', 'l']) (.char blank) = _
    rw [Reader.inTarget_blank _ _ hblank, Word.toList_ofList]
    exact if_pos ⟨rfl, hstage⟩
  rw [Reader.takeAll_append, hread]
  exact hr.exists_takeAll (holds_of_isSpace hblank) (passes_instructionScanner.space blank hblank)
    (exists_acceptAll ⟨_, haccept, hbehind.leave rfl⟩)

/-! ## Items -/

/-- The word that an item begins with. -/
def Item.word (item : Item) : List Char :=
  item.initial :: item.rest.toList

theorem Item.isPlainName_rest (item : Item) : IsPlainName item.rest := by
  cases item <;> decide

/-- What an item may have as its value. -/
def Item.Admits : Item → String → Prop
  | .version, text => text = "1.0" ∨ text = "1.1"
  | .encoding, _ => True
  | .standalone, text => text = "yes" ∨ text = "no"

/-- The view behind an item. -/
def View.setItem (v : View) : Item → String → View
  | .version, text => { v with settings := { v.settings with revised := text == "1.1" } }
  | .encoding, text => { v with label := some text }
  | .standalone, _ => v

theorem View.setItem_on (v : View) (s : Scanner) (p : Place) (item : Item) (text : String) :
    (v.on s p).setItem item text = (v.setItem item text).on s p := by
  cases item <;> rfl

theorem Shows.setItem (h : Shows v r) {text : String} (htext : item.Admits text) :
    ∃ r', r.setItem item text = .ok r' ∧ Shows (v.setItem item text) r' := by
  rw [← h.view]
  cases item with
  | version =>
    rcases htext with rfl | rfl
    · exact ⟨_, rfl, rfl, h.pending, h.settled⟩
    · exact ⟨_, rfl, rfl, h.pending, h.settled⟩
  | encoding => exact ⟨_, rfl, rfl, h.pending, h.settled⟩
  | standalone => exact ⟨r, if_pos htext, rfl, h.pending, h.settled⟩

theorem accepts_initial {before : Option Item} (hitem : item ∈ followers before) (s : Scanner) :
    Accepts (v.on s (.declaration (.gap before))) [.char item.initial]
      (v.on s (.declaration (.word item {}))) := by
  refine .single fun r hr => ⟨_, ?_, hr.leave rfl⟩
  have hfind : (followers before).find? (fun other =>
      Token.char item.initial == .char other.initial) = some item := by
    rcases before with - | (_ | _ | _) <;> cases item <;>
      first | rfl | exact absurd hitem (by decide)
  have hblank : (Token.char item.initial).isBlank = false := by cases item <;> rfl
  rw [Reader.accept, hr.place_eq]
  simp only [View.on, Reader.inDeclaration, hblank, hfind]
  rfl

/-- The word of an item. -/
theorem reads_itemWord {before : Option Item} (hitem : item ∈ followers before) :
    Reads (Shows (v.on instructionScanner (.declaration (.gap before)))) item.word
      (Shows (v.on instructionScanner (.declaration (.word item (.ofList item.rest.toList))))) := by
  have halnum : item.initial.isAlphanum = true := by cases item <;> rfl
  have hfirst := reads_char (v := v) (v.holds_of_ascii (toNat_lt_of_isAlphanum halnum))
    (passes_instructionScanner.alphanum _ halnum) (accepts_initial hitem instructionScanner)
  have hrest : Reads (Shows (v.on instructionScanner (.declaration (.word item (.ofList [])))))
      item.rest.toList
      (Shows (v.on instructionScanner (.declaration (.word item (.ofList item.rest.toList))))) :=
    reads_name passes_instructionScanner item.isPlainName_rest
      (fun w => .declaration (.word item w)) (fun _ => rfl)
      (fun r w d hplace => ⟨[.equals], fun r name =>
        if name.base = item.rest then
          r.goto (.declaration (if Token.char d = .equals then .value item {} else .equals item))
        else r.fail .badDeclaration, by rw [Reader.accept, hplace]; rfl⟩)
      (List.nil_append _)
  exact hfirst.cons hrest

theorem accepts_behindItemWord (v : View) (item : Item) (s : Scanner) {t : Token}
    (ht : t.isBlank = true ∨ t = .equals) :
    Accepts (v.on s (.declaration (.word item (.ofList item.rest.toList)))) [t]
      (v.on s (if t = .equals then .declaration (.value item {})
        else .declaration (.equals item))) := by
  refine .single fun r hr => ?_
  have hend : t.isBlank = true ∨ t ∈ [Token.equals] := ht.imp_right List.mem_singleton.mpr
  obtain ⟨colon, hdone⟩ := r.readName_end (fun name => .declaration (.word item name))
    (fun r name =>
      if name.base = item.rest then
        r.goto (.declaration (if t = .equals then .value item {} else .equals item))
      else r.fail .badDeclaration) (by simp) hend item.isPlainName_rest.ofChars?_eq
  rw [if_pos rfl] at hdone
  refine ⟨_, ?_, (hr.afterColon colon).leave rfl⟩
  rw [Reader.accept, hr.place_eq, ← apply_ite Place.declaration]
  exact hdone

theorem accepts_beforeItemValue (v : View) (item : Item) (s : Scanner) {t : Token}
    (ht : t.isBlank = true ∨ t = .equals) :
    Accepts (v.on s (.declaration (.equals item))) [t]
      (v.on s (if t = .equals then .declaration (.value item {})
        else .declaration (.equals item))) := by
  refine .single fun r hr => ⟨_, ?_, hr.leave rfl⟩
  rw [Reader.accept, hr.place_eq]
  by_cases hequals : t = .equals
  · simp only [View.on, Reader.inDeclaration, hequals, if_true]
    rfl
  · simp only [View.on, Reader.inDeclaration, hequals, if_false, ht.resolve_right hequals, if_true]
    rfl

theorem valuePlace_item (item : Item) :
    ValuePlace fun value => .declaration (.value item value) where
  not_isText _ := rfl
  accept_eq r value t value' hplace hstep := by
    rw [Reader.accept, hplace]
    simp only [Reader.inDeclaration, hstep]

/-- Characters that are tokens of their own in an instruction, and may stand in a value. -/
def IsItemText (c : Char) : Prop :=
  IsPrintable c ∧ c ∉ ['?', '<', '\'', '"', '>', '=', '&', ';']

theorem reads_itemText {q : Quote} {cs : List Char} (hcs : ∀ c ∈ cs, IsItemText c)
    (front : List Char) :
    Reads
      (Shows (v.on instructionScanner (.declaration (.value item ⟨some q, front.reverse, none⟩)))) cs
      (Shows (v.on instructionScanner
        (.declaration (.value item ⟨some q, (front ++ cs).reverse, none⟩)))) := by
  induction cs generalizing front with
  | nil =>
    rw [List.append_nil]
    exact .nil _
  | cons c cs ih =>
    obtain ⟨⟨hprintable, hplain⟩, hrest⟩ := List.forall_mem_cons.mp hcs
    have htail := ih hrest (front ++ [c])
    rw [List.append_assoc, List.singleton_append] at htail
    have htext : IsValueText q (.char c) := hprintable
    have hfirst := (valuePlace_item item).accepts (v := v) (Value.step_text htext front)
      instructionScanner
    exact (reads_char hprintable.holds (Scanner.step_instruction hplain) hfirst).cons htail

theorem reads_itemClose {q : Quote} {text : List Char} (htext : item.Admits (String.ofList text)) :
    Reads
      (Shows (v.on instructionScanner (.declaration (.value item ⟨some q, text.reverse, none⟩))))
      [q.char]
      (Shows ((v.setItem item (String.ofList text)).on instructionScanner
        (.declaration (.closing item)))) := by
  refine reads_char (v.holds_quote q) (passes_instructionScanner.quote q) (.single fun r hr => ?_)
  obtain ⟨r', hset, hr'⟩ := hr.setItem htext
  rw [View.setItem_on] at hr'
  refine ⟨_, ?_, hr'.leave rfl⟩
  rw [Reader.accept, hr.place_eq]
  simp only [View.on, Reader.inDeclaration, Value.step_close, hset]
  rfl

theorem accepts_itemBlank {c : Char} (hc : isSpace c = true) (s : Scanner) :
    Accepts (v.on s (.declaration (.closing last))) [.char c]
      (v.on s (.declaration (.gap (some last)))) :=
  .single fun r hr => ⟨_, by rw [Reader.accept, hr.place_eq]; exact if_pos hc,
    hr.leave rfl⟩

theorem reads_itemGap {before : Option Item} {gap : List Char} (hgap : IsGap gap) :
    Reads (Shows (v.on instructionScanner (.declaration (.gap before)))) gap
      (Shows (v.on instructionScanner (.declaration (.gap before)))) :=
  reads_blanks passes_instructionScanner hgap fun c hc => .single fun r hr =>
    ⟨_, by rw [Reader.accept, hr.place_eq]; exact if_pos hc,
      hr.leave rfl⟩

/-- An item behind the blanks before it. -/
theorem reads_item {before : Option Item} (hitem : item ∈ followers before)
    {gap front back value : List Char} {q : Quote} (hgap : IsGap gap) (hfront : IsGap front)
    (hback : IsGap back) (hvalue : ∀ c ∈ value, IsItemText c)
    (hadmits : item.Admits (String.ofList value)) :
    Reads (Shows (v.on instructionScanner (.declaration (.gap before))))
      (gap ++ (item.word ++ (front ++ '=' :: (back ++ q.char :: (value ++ [q.char])))))
      (Shows ((v.setItem item (String.ofList value)).on instructionScanner
        (.declaration (.closing item)))) := by
  have hequals := reads_equals passes_instructionScanner
    (fun t ht => accepts_behindItemWord v item _ ht)
    (fun t ht => accepts_beforeItemValue v item _ ht) hfront
  have hopen := (valuePlace_item item).reads_open (v := v) passes_instructionScanner hback q
  have hread : Reads
      (Shows (v.on instructionScanner (.declaration (.value item ⟨some q, [], none⟩)))) value
      (Shows (v.on instructionScanner
        (.declaration (.value item ⟨some q, value.reverse, none⟩)))) :=
    reads_itemText hvalue []
  have hwhole := (reads_itemGap hgap).append ((reads_itemWord hitem).append (hequals.append
    (hopen.append (hread.append (reads_itemClose hadmits)))))
  simpa only [List.append_assoc, List.singleton_append, List.nil_append] using hwhole

/-- An item behind another one. -/
theorem reads_nextItem (hitem : item ∈ followers (some last)) {value cs : List Char}
    (hwritten : WritesItem item.word value cs) (hvalue : ∀ c ∈ value, IsItemText c)
    (hadmits : item.Admits (String.ofList value)) :
    Reads (Shows (v.on instructionScanner (.declaration (.closing last)))) cs
      (Shows ((v.setItem item (String.ofList value)).on instructionScanner
        (.declaration (.closing item)))) := by
  obtain ⟨hne, hgap, hfront, hback⟩ := hwritten
  rename_i gap front back q
  obtain ⟨c, gap, rfl⟩ := List.exists_cons_of_ne_nil hne
  obtain ⟨hc, hrest⟩ := List.forall_mem_cons.mp hgap
  have hfirst : Reads (Shows (v.on instructionScanner (.declaration (.closing last)))) [c]
      (Shows (v.on instructionScanner (.declaration (.gap (some last))))) :=
    reads_char (holds_of_isSpace hc) (passes_instructionScanner.space c hc) (accepts_itemBlank hc _)
  exact hfirst.cons (reads_item hitem hrest hfront hback hvalue hadmits)

/-- The version behind the name `xml`. -/
theorem reads_firstItem {value cs : List Char} (hwritten : WritesItem Item.version.word value cs)
    (hvalue : ∀ c ∈ value, IsItemText c) (hadmits : Item.version.Admits (String.ofList value)) :
    Reads (fun r => r = {}) ('<' :: '?' :: 'x' :: 'm' :: 'l' :: cs)
      (Shows (((opened false none .utf8).setItem .version (String.ofList value)).on
        instructionScanner (.declaration (.closing .version)))) := by
  obtain ⟨hne, hgap, hfront, hback⟩ := hwritten
  rename_i gap front back q
  obtain ⟨c, gap, rfl⟩ := List.exists_cons_of_ne_nil hne
  obtain ⟨hc, hrest⟩ := List.forall_mem_cons.mp hgap
  exact (reads_declarationOpen hc).append
    (reads_item List.mem_cons_self hrest hfront hback hvalue hadmits)

/-! ## The whole declaration -/

/-- The encoding that a label names, with UTF-8 where there is none. -/
def Labels (label : Option String) (encoding : Encoding) : Prop :=
  match label with
  | none => encoding = .utf8
  | some name => Encoding.ofName? name = some encoding

/-- The end of the declaration decides on the encoding. -/
theorem Shows.endDeclaration {revised : Bool} {label : Option String} {encoding : Encoding}
    {s : Scanner} {place : DeclarationPlace}
    (hr : Shows ((opened revised label .utf8).on s (.declaration place)) r)
    (hlabel : Labels label encoding) :
    ∃ r', r.endDeclaration = .ok r' ∧
      Shows ((opened revised label encoding).on s .content) r' := by
  have hended := (hr.deliver.toContent).stage .begun
  have hrlabel : r.label = label := congrArg View.label hr.view
  have hmarked : r.marked = false := congrArg View.marked hr.view
  have hutf : r.encoding = .utf8 := congrArg View.encoding hr.view
  cases label with
  | none =>
    obtain rfl : encoding = .utf8 := hlabel
    refine ⟨_, ?_, hended⟩
    simp only [Reader.endDeclaration, Reader.deliver, hrlabel]
  | some name =>
    have hname : Encoding.ofName? name = some encoding := hlabel
    refine ⟨{ r.deliver with place := .content, stage := .begun, encoding := encoding }, ?_, ?_,
      hended.pending, hended.settled⟩
    · simp only [Reader.endDeclaration, Reader.deliver, hrlabel, hname, hmarked]
      rfl
    · exact congrArg (fun v => { v with encoding := encoding }) hended.view

/-- The end of the declaration, behind blanks or none. -/
theorem reads_declarationEnd {revised : Bool} {label : Option String} {encoding : Encoding}
    (hlabel : Labels label encoding) {gap : List Char} (hgap : IsGap gap) :
    Reads
      (Shows ((opened revised label .utf8).on instructionScanner (.declaration (.closing last))))
      (gap ++ ['?', '>']) (Shows ((opened revised label encoding).on (.inside []) .content)) := by
  generalize hw : opened revised label .utf8 = w
  have hclose : ∀ place : DeclarationPlace,
      (∀ r : Reader, r.inDeclaration place .instructionClose = r.endDeclaration) →
      Reads (Shows (w.on instructionScanner (.declaration place))) ['?', '>']
        (Shows ((opened revised label encoding).on (.inside []) .content)) := by
    intro place hplace
    refine (reads_held (by decide) rfl).cons
      (reads_char (w.holds_of_ascii (by decide)) rfl (.single fun r hr => ?_))
    rw [Reader.accept, hr.place_eq]
    change ∃ r', r.inDeclaration place .instructionClose = .ok r' ∧ _
    rw [hplace]
    subst hw
    exact hr.endDeclaration hlabel
  cases gap with
  | nil => exact hclose _ fun _ => rfl
  | cons c gap =>
    obtain ⟨hc, hrest⟩ := List.forall_mem_cons.mp hgap
    have hfirst : Reads (Shows (w.on instructionScanner (.declaration (.closing last)))) [c]
        (Shows (w.on instructionScanner (.declaration (.gap (some last))))) :=
      reads_char (holds_of_isSpace hc) (passes_instructionScanner.space c hc)
        (accepts_itemBlank hc _)
    have hblanks : Reads (Shows (w.on instructionScanner (.declaration (.gap (some last))))) gap
        (Shows (w.on instructionScanner (.declaration (.gap (some last))))) :=
      reads_itemGap hrest
    exact hfirst.cons (hblanks.append (hclose _ fun _ => rfl))

/-! ### The values of the items -/

theorem isItemText_of_isLabel {label : List Char} (h : IsLabel label) :
    ∀ c ∈ label, IsItemText c := by
  intro c hc
  rcases h c hc with halnum | hmark
  · exact ⟨isPrintable_of_isAlphanum halnum, not_mem_of_isAlphanum (by decide) halnum⟩
  · simp only [List.mem_cons, List.not_mem_nil, or_false] at hmark
    rcases hmark with rfl | rfl | rfl <;> exact ⟨⟨by decide, by decide⟩, by decide⟩

theorem reads_version (f : Form) {cs : List Char}
    (hwritten : WritesItem "version".toList (if f.revised then "1.1" else "1.0").toList cs) :
    Reads (fun r => r = {}) ('<' :: '?' :: 'x' :: 'm' :: 'l' :: cs)
      (Shows ((opened f.revised none .utf8).on instructionScanner
        (.declaration (.closing .version)))) := by
  have hlabel : IsLabel (if f.revised then "1.1" else "1.0").toList := by
    split <;> exact Text.forall_mem_of_all (by decide)
  have hadmits : Item.version.Admits
      (String.ofList (if f.revised then "1.1" else "1.0").toList) := by
    rw [String.ofList_toList]
    split
    · exact .inr rfl
    · exact .inl rfl
  have hview : (opened false none .utf8).setItem .version
      (String.ofList (if f.revised then "1.1" else "1.0").toList) =
        opened f.revised none .utf8 := by
    rw [String.ofList_toList]
    cases f.revised <;> rfl
  have hread := reads_firstItem hwritten (isItemText_of_isLabel hlabel) hadmits
  rwa [hview] at hread

theorem reads_encoding (f : Form) {cs : List Char}
    (hwritten : cs = [] ∧ f.encoding = .utf8 ∨
      ∃ label, IsLabel label ∧ Encoding.ofName? (String.ofList label) = some f.encoding ∧
        WritesItem "encoding".toList label cs) :
    ∃ last label, Labels label f.encoding ∧ Item.standalone ∈ followers (some last) ∧
      Reads (Shows ((opened f.revised none .utf8).on instructionScanner
          (.declaration (.closing .version)))) cs
        (Shows ((opened f.revised label .utf8).on instructionScanner
          (.declaration (.closing last)))) := by
  rcases hwritten with ⟨rfl, hutf⟩ | ⟨label, hlabel, hname, hitem⟩
  · exact ⟨.version, none, hutf, by decide, .nil _⟩
  · have hnext : Item.encoding ∈ followers (some .version) := by decide
    exact ⟨.encoding, some (String.ofList label), hname, by decide,
      reads_nextItem hnext hitem (isItemText_of_isLabel hlabel) trivial⟩

theorem reads_standalone {cs : List Char} (hlast : Item.standalone ∈ followers (some last))
    (hwritten : cs = [] ∨
      ∃ answer ∈ ["yes".toList, "no".toList], WritesItem "standalone".toList answer cs) :
    ∃ last', Reads (Shows (v.on instructionScanner (.declaration (.closing last)))) cs
      (Shows (v.on instructionScanner (.declaration (.closing last')))) := by
  rcases hwritten with rfl | ⟨answer, hanswer, hitem⟩
  · exact ⟨last, .nil _⟩
  · have hlabel : IsLabel answer := by
      simp only [List.mem_cons, List.not_mem_nil, or_false] at hanswer
      rcases hanswer with rfl | rfl <;> exact Text.forall_mem_of_all (by decide)
    have hadmits : Item.standalone.Admits (String.ofList answer) := by
      simp only [List.mem_cons, List.not_mem_nil, or_false] at hanswer
      rcases hanswer with rfl | rfl
      · exact .inl String.ofList_toList
      · exact .inr String.ofList_toList
    exact ⟨.standalone, reads_nextItem hlast hitem (isItemText_of_isLabel hlabel) hadmits⟩

/-- A whole declaration. -/
theorem reads_declaration {f : Form} {cs : List Char} (hwritten : WritesDeclaration f cs) :
    ∃ label, Reads (fun r => r = {}) cs
      (Shows ((opened f.revised label f.encoding).on (.inside []) .content)) := by
  obtain ⟨hversion, hencoding, hstandalone, hgap⟩ := hwritten
  obtain ⟨last, label, hlabel, hlast, hread⟩ := reads_encoding f hencoding
  obtain ⟨last', hread'⟩ := reads_standalone (v := opened f.revised label .utf8) hlast hstandalone
  refine ⟨label, ?_⟩
  have hwhole := (reads_version f hversion).append (hread.append (hread'.append
    (reads_declarationEnd hlabel hgap)))
  simpa only [List.cons_append, List.append_assoc] using hwhole

end CallBridge.Markup
