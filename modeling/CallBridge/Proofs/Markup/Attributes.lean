import CallBridge.Proofs.Markup.Tags

/-!
# Reading attributes

* `ValuePlace` is a place where a quoted value is read: in an attribute or in the declaration
  at the top of a document;
* `reads_value` reads the value of an attribute up to its closing quote, whichever of its
  characters are references;
* `reads_attributes` reads what stands in a start tag behind the name.
-/

namespace CallBridge.Markup

/-! ## Values -/

/-- Tokens that a value between quotes takes for text. -/
def IsValueText (q : Quote) : Token → Prop
  | .char c => IsPrintable c
  | .quote q' => q' ≠ q
  | .tagClose | .emptyTagClose | .cdataClose | .equals | .semicolon => True
  | _ => False

namespace Value

variable {q : Quote} {s : Settings} {t : Token} {c : Char}

theorem step_blank (hc : isSpace c = true) : step s {} (.char c) = .ok (.more {}) := by
  simp [step, beforeQuote, hc]

theorem step_quote (q : Quote) : step s {} (.quote q) = .ok (.more ⟨some q, [], none⟩) := rfl

theorem step_text (ht : IsValueText q t) (front : List Char) :
    step s ⟨some q, front.reverse, none⟩ t =
      .ok (.more ⟨some q, (front ++ t.text).reverse, none⟩) := by
  rw [List.reverse_append]
  cases t with
  | char c => simp [step, inside, write, isLiteral_of_printable s.revised ht.low ht.high]
  | quote q' =>
    have hne : q' ≠ q := ht
    simp [step, inside, write, hne]
  | tagClose | emptyTagClose | cdataClose | equals | semicolon => simp [step, inside, write]
  | _ => exact absurd ht id

theorem step_ampersand (chars : List Char) :
    step s ⟨some q, chars, none⟩ .ampersand = .ok (.more ⟨some q, chars, some {}⟩) := rfl

theorem step_extends {w : Word} (hc : extendsReference w c = true) (chars : List Char) :
    step s ⟨some q, chars, some w⟩ (.char c) = .ok (.more ⟨some q, chars, some (w.push c)⟩) := by
  simp [step, inReference, Settings.referenceStep_char hc]

theorem step_expand {w : Word} (hw : s.expand w.toList = .ok (.char c)) (front : List Char) :
    step s ⟨some q, front.reverse, some w⟩ .semicolon =
      .ok (.more ⟨some q, (front ++ [c]).reverse, none⟩) := by
  simp [step, inReference, Settings.referenceStep_semicolon hw, write]

theorem step_close (front : List Char) :
    step s ⟨some q, front.reverse, none⟩ (.quote q) = .ok (.done (String.ofList front)) := by
  simp [step, inside]

end Value

/-- A place where a value is read token by token. -/
structure ValuePlace (place : Value → Place) : Prop where
  not_isText : ∀ value, (place value).isText = false
  accept_eq : ∀ (r : Reader) value t value', r.place = place value →
    value.step r.settings t = .ok (.more value') → r.accept t = r.goto (place value')

namespace ValuePlace

variable {place : Value → Place} {v : View}

theorem accepts (h : ValuePlace place) {value value' : Value} {t : Token}
    (hstep : value.step v.settings t = .ok (.more value')) (s : Scanner) :
    Accepts (v.on s (place value)) [t] (v.on s (place value')) := by
  refine .single fun r hr => ⟨_, h.accept_eq r value t value' hr.place_eq ?_,
    hr.leave (h.not_isText value)⟩
  rw [hr.settings_eq]
  exact hstep

/-- Between its quotes, a value is a place for text. -/
theorem textPlace (h : ValuePlace place) (v : View) (q : Quote) :
    TextPlace (fun _ => v) (fun front => place ⟨some q, front.reverse, none⟩) (IsValueText q) where
  takes t ht front s := h.accepts (Value.step_text ht front) s
  slash := ⟨by decide, by decide⟩
  bracket := ⟨by decide, by decide⟩
  emptyTagClose := trivial

/-- Blanks may stand before the first quote. -/
theorem reads_open (h : ValuePlace place) {scanner : Scanner} (hscan : scanner.Passes)
    {gap : List Char} (hgap : IsGap gap) (q : Quote) :
    Reads (Shows (v.on scanner (place {}))) (gap ++ [q.char])
      (Shows (v.on scanner (place ⟨some q, [], none⟩))) := by
  exact (reads_blanks hscan hgap fun c hc => h.accepts (Value.step_blank hc) _).append
    (reads_char (v.holds_quote q) (hscan.quote q) (h.accepts (Value.step_quote q) _))

end ValuePlace

/-- A character that is printable and no ampersand is a token of text in a value, unless it is
the quote of the value. -/
theorem isValueText_plainToken {q : Quote} {c : Char} (hprintable : IsPrintable c)
    (hc : c ∉ ['<', '&', q.char]) : IsValueText q (Scanner.plainToken c) := by
  simp only [List.mem_cons, List.not_mem_nil, or_false, not_or] at hc
  unfold Scanner.plainToken
  split
  · rename_i q' hq'
    rintro rfl
    exact hc.2.2 (Quote.char_of_ofChar? hq').symm
  · simp only [hc.2.1, if_false]
    split
    · trivial
    · split
      · trivial
      · split
        · trivial
        · exact hprintable

/-- The readers in a value behind a text. -/
def InValue (v : View) (place : Value → Place) (q : Quote) (text : List Char) (brackets : Nat) :
    Reader → Prop :=
  Behind (fun _ => v) (fun front => place ⟨some q, front.reverse, none⟩) text brackets

/-- A value is read up to its closing quote, and the readers are then behind all of it. -/
theorem reads_value {place : Value → Place} (hplace : ValuePlace place) {v : View} {q : Quote}
    {value written : List Char} (hwritten : WritesValue q value written)
    (hvalue : ∀ c ∈ value, IsPrintable c) (text : List Char) (brackets : Nat) :
    Reads (InValue v place q text brackets) written
      (fun r => ∃ brackets', InValue v place q (text ++ value) brackets' r) := by
  have htext := hplace.textPlace v q
  induction hwritten generalizing text brackets with
  | nil =>
    rw [List.append_nil]
    exact (Reads.nil _).mono fun r hr => ⟨brackets, hr⟩
  | @raw c value cs hc _ ih =>
    obtain ⟨hprintable, hrest⟩ := List.forall_mem_cons.mp hvalue
    have hopen : c ≠ '<' := fun h => hc (by simp [h])
    have hfirst : Reads (InValue v place q text brackets) [c]
        (InValue v place q (text ++ [c]) (if c = ']' then brackets + 1 else 0)) :=
      htext.reads_raw (fun _ => hprintable.holds) hopen (isValueText_plainToken hprintable hc)
        fun _ => .inr trivial
    have htail := ih hrest (text ++ [c]) (if c = ']' then brackets + 1 else 0)
    rw [List.append_assoc, List.singleton_append] at htail
    exact hfirst.cons htail
  | @reference c ref value cs href _ ih =>
    obtain ⟨hprintable, hrest⟩ := List.forall_mem_cons.mp hvalue
    have hampersand : Reads (InValue v place q text brackets) ['&']
        (Shows (v.on (.inside []) (place ⟨some q, text.reverse, some {}⟩))) :=
      htext.reads_flush (fun _ => v.holds_of_ascii (by decide))
        (fun held hheld => Scanner.step_plain hheld (by decide))
        (hplace.accepts (Value.step_ampersand text.reverse) _)
    have hname : Reads (Shows (v.on (.inside []) (place ⟨some q, text.reverse, some {}⟩)))
        (ref ++ [';']) (InValue v place q (text ++ [c]) 0) := by
      have hread : Reads (Shows (v.on (.inside []) (place ⟨some q, text.reverse, some {}⟩)))
          (ref ++ [';'])
          (Shows (v.on (.inside []) (place ⟨some q, (text ++ [c]).reverse, none⟩))) :=
        reads_reference href hprintable
          (fun w d hd => hplace.accepts (Value.step_extends hd _) _)
          (fun w hw => hplace.accepts (Value.step_expand hw text) _)
      exact hread.mono fun r hr => behind_of_shows hr 0
    have htail := ih hrest (text ++ [c]) 0
    rw [List.append_assoc, List.singleton_append] at htail
    have hwhole := hampersand.cons (hname.append htail)
    rwa [List.append_assoc, List.singleton_append] at hwhole

/-! ## Names of attributes -/

theorem valuePlace_attribute (tag : Tag) (name : QName) :
    ValuePlace fun value => .startTag tag (.value name value) where
  not_isText _ := rfl
  accept_eq r value t value' hplace hstep := by
    rw [Reader.accept, hplace]
    simp only [Reader.inStartTag, hstep]

theorem contains_plainTag (v : View) (element : String) {name : String}
    {done : List (String × String)} (hfresh : name ∉ done.map Prod.fst) :
    ((plainTag v element done).attributes.map Prod.fst).contains ⟨none, name⟩ = false := by
  simpa [plainTag] using hfresh

theorem attributeKind_of_plain {name : String} (hname : name ≠ declaringScope) (value : String) :
    attributeKind ⟨none, name⟩ value = .ordinary := by
  simp [attributeKind, hname]

/-- An equals sign behind a name leads to a value.  Blanks may stand between the two. -/
theorem reads_equals {v : View} {scanner : Scanner} (hscan : scanner.Passes)
    {named equals value : Place}
    (hnamed : ∀ t, t.isBlank = true ∨ t = .equals →
      Accepts (v.on scanner named) [t] (v.on scanner (if t = .equals then value else equals)))
    (hequals : ∀ t, t.isBlank = true ∨ t = .equals →
      Accepts (v.on scanner equals) [t] (v.on scanner (if t = .equals then value else equals)))
    {before : List Char} (hbefore : IsGap before) :
    Reads (Shows (v.on scanner named)) (before ++ ['=']) (Shows (v.on scanner value)) := by
  have hholds : v.Holds '=' := v.holds_of_ascii (by decide)
  cases before with
  | nil => exact reads_char hholds hscan.equals (hnamed .equals (.inr rfl))
  | cons c before =>
    obtain ⟨hc, hrest⟩ := List.forall_mem_cons.mp hbefore
    have hfirst : Reads (Shows (v.on scanner named)) [c] (Shows (v.on scanner equals)) :=
      reads_char (holds_of_isSpace hc) (hscan.space c hc) (hnamed (.char c) (.inl hc))
    have hblanks : Reads (Shows (v.on scanner equals)) before (Shows (v.on scanner equals)) :=
      reads_blanks hscan hrest fun d hd => hequals (.char d) (.inl hd)
    have hsign : Reads (Shows (v.on scanner equals)) ['='] (Shows (v.on scanner value)) :=
      reads_char hholds hscan.equals (hequals .equals (.inr rfl))
    exact hfirst.cons (hblanks.append hsign)

/-- Behind the name of an attribute, its value is next. -/
theorem accepts_behindAttributeName (v : View) (element : String) {name : String}
    {done : List (String × String)} (hname : IsPlainName name)
    (hfresh : name ∉ done.map Prod.fst) (s : Scanner) {t : Token}
    (ht : t.isBlank = true ∨ t = .equals) :
    Accepts
      (v.on s (.startTag (plainTag v element done) (.attributeName (.ofList name.toList)))) [t]
      (v.on s (if t = .equals then .startTag (plainTag v element done) (.value ⟨none, name⟩ {})
        else .startTag (plainTag v element done) (.equals ⟨none, name⟩))) := by
  generalize htag : plainTag v element done = tag
  have hcontains : (tag.attributes.map Prod.fst).contains ⟨none, name⟩ = false :=
    htag ▸ contains_plainTag v element hfresh
  refine .single fun r hr => ?_
  have hend : t.isBlank = true ∨ t ∈ [Token.equals] := ht.imp_right List.mem_singleton.mpr
  obtain ⟨colon, hdone⟩ := r.readName_end (fun name => .startTag tag (.attributeName name))
    (fun r name =>
      if (tag.attributes.map Prod.fst).contains name then r.fail .repeatedAttribute
      else r.goto (.startTag tag (if t = .equals then .value name {} else .equals name)))
    (by simp) hend hname.ofChars?_eq
  rw [hcontains] at hdone
  refine ⟨_, ?_, (hr.afterColon colon).leave rfl⟩
  rw [Reader.accept, hr.place_eq, ← apply_ite (Place.startTag tag)]
  exact hdone

theorem accepts_beforeEquals (v : View) (tag : Tag) (name : QName) (s : Scanner) {t : Token}
    (ht : t.isBlank = true ∨ t = .equals) :
    Accepts (v.on s (.startTag tag (.equals name))) [t]
      (v.on s (if t = .equals then .startTag tag (.value name {})
        else .startTag tag (.equals name))) := by
  refine .single fun r hr => ?_
  by_cases hequals : t = .equals
  · rw [if_pos hequals]
    refine ⟨_, ?_, hr.leave rfl⟩
    rw [Reader.accept, hr.place_eq]
    exact if_pos hequals
  · rw [if_neg hequals]
    refine ⟨r, ?_, hr⟩
    rw [Reader.accept, hr.place_eq]
    simp only [View.on, Reader.inStartTag, hequals, if_false, ht.resolve_right hequals, if_true]

/-- The name of an attribute is read behind blanks. -/
theorem reads_attributeName {v : View} (tag : Tag) {name : String} (hname : IsPlainName name) :
    Reads (Shows (v.on (.inside []) (.startTag tag .gap))) name.toList
      (Shows (v.on (.inside []) (.startTag tag (.attributeName (.ofList name.toList))))) := by
  obtain ⟨c, cs, hcs⟩ := List.exists_cons_of_ne_nil hname.ne_nil
  have hc : c ∈ name.toList := hcs ▸ List.mem_cons_self
  have hstart : isNameStart c = true := isNameStart_of_isAlpha (hname.isAlpha_head c (hcs ▸ rfl))
  have hfirst : Reads (Shows (v.on (.inside []) (.startTag tag .gap))) [c]
      (Shows (v.on (.inside []) (.startTag tag (.attributeName (.ofList [c]))))) := by
    refine reads_char (hname.holds c hc) (Scanner.step_isAlphanum (hname.isAlphanum c hc))
      (.single fun r hr => ⟨_, ?_, hr.leave rfl⟩)
    rw [Reader.accept, hr.place_eq]
    simp only [View.on, Reader.inStartTag, hstart, if_true]
    rfl
  have hrest : Reads (Shows (v.on (.inside []) (.startTag tag (.attributeName (.ofList [c]))))) cs
      (Shows (v.on (.inside []) (.startTag tag (.attributeName (.ofList name.toList))))) :=
    reads_name Scanner.passes_inside hname (fun w => .startTag tag (.attributeName w))
      (fun _ => rfl)
      (fun r w d hplace => ⟨[.equals], fun r name =>
        if (tag.attributes.map Prod.fst).contains name then r.fail .repeatedAttribute
        else r.goto (.startTag tag
          (if Token.char d = .equals then .value name {} else .equals name)),
        by rw [Reader.accept, hplace]; rfl⟩) hcs.symm
  conv => arg 2; rw [hcs]
  exact hfirst.cons hrest

/-! ## Attributes -/

/-- The closing quote completes an attribute. -/
theorem reads_closingQuote {v : View} (element : String) {name value : String}
    {done : List (String × String)} (hname : name ≠ declaringScope)
    (hlength : done.length < maxAttributes) (q : Quote) (brackets : Nat) :
    Reads
      (InValue v (fun value => .startTag (plainTag v element done) (.value ⟨none, name⟩ value)) q
        value.toList brackets) [q.char]
      (Shows (v.on (.inside [])
        (.startTag (plainTag v element (done ++ [(name, value)])) .closing))) := by
  have hscan : ∀ held ∈ heldRuns, (Scanner.inside held).step q.char =
      .ok (.inside [], held.map .char ++ [.quote q]) := by
    intro held hheld
    cases q <;> exact Scanner.step_plain hheld (by decide)
  refine ((valuePlace_attribute _ _).textPlace v q).reads_flush (fun _ => v.holds_quote q) hscan
    (.single fun r hr => ?_)
  have hroom : ¬ maxAttributes ≤ (plainTag v element done).attributes.length := by
    rw [plainTag, List.length_map, List.length_reverse]
    omega
  have hadd : r.addAttribute (plainTag v element done) ⟨none, name⟩ value =
      .ok (plainTag v element (done ++ [(name, value)])) := by
    simp only [Reader.addAttribute, attributeKind_of_plain hname, hroom, if_false]
    simp [plainTag]
  refine ⟨_, ?_, hr.leave rfl⟩
  rw [Reader.accept, hr.place_eq]
  simp only [View.on, Reader.inStartTag, Value.step_close, String.ofList_toList, hadd]
  rfl

/-- What stands in a start tag behind the name, and the readers may end the tag there. -/
theorem reads_attributes {v : View} (element : String) {attributes : List (String × String)}
    {cs : List Char} (hwritten : WritesAttributes attributes cs) {done : List (String × String)}
    (hplain : ArePlain (done ++ attributes)) {place : Place}
    (hcloses : Closes v place (plainTag v element done)) :
    Reads (Shows (v.on (.inside []) place)) cs
      (fun r => ∃ place', Closes v place' (plainTag v element (done ++ attributes)) ∧
        Shows (v.on (.inside []) place') r) := by
  induction hwritten generalizing done place with
  | @nil gap hgap =>
    rw [List.append_nil]
    cases gap with
    | nil => exact (Reads.nil _).mono fun r hr => ⟨place, hcloses, hr⟩
    | cons c gap =>
      exact (hcloses.reads_gap (List.cons_ne_nil _ _) hgap).mono fun r hr =>
        ⟨_, closes_gap v _, hr⟩
  | @cons name value attributes gap before after written cs q hne hgap hbefore hafter hvalue _ ih =>
    have hsplit : done ++ (name, value) :: attributes =
        (done ++ [(name, value)]) ++ attributes := by
      rw [List.append_assoc, List.singleton_append]
    have hmem : (name, value) ∈ done ++ (name, value) :: attributes :=
      List.mem_append_right _ List.mem_cons_self
    have hname : IsPlainName name := hplain.names _ hmem
    have hfresh : name ∉ done.map Prod.fst := by
      have hnodup := hplain.nodup
      rw [List.map_append, List.map_cons, List.nodup_append] at hnodup
      exact fun hdone => hnodup.2.2 name hdone name List.mem_cons_self rfl
    have hlength : done.length < maxAttributes := by
      have := hplain.length_le
      rw [List.length_append, List.length_cons] at this
      omega
    have hequals := reads_equals Scanner.passes_inside
      (fun t ht => accepts_behindAttributeName v element hname hfresh _ ht)
      (fun t ht => accepts_beforeEquals v (plainTag v element done) ⟨none, name⟩ _ ht) hbefore
    have hplace := valuePlace_attribute (plainTag v element done) ⟨none, name⟩
    have hopen := hplace.reads_open (v := v) Scanner.passes_inside hafter q
    have hread : Reads (Shows (v.on (.inside []) (.startTag (plainTag v element done)
          (.value ⟨none, name⟩ ⟨some q, [], none⟩)))) written
        (fun r => ∃ brackets, InValue v (fun value => .startTag (plainTag v element done)
          (.value ⟨none, name⟩ value)) q value.toList brackets r) := by
      intro r hr
      exact reads_value hplace hvalue (hplain.values _ hmem) [] 0 r (behind_of_shows hr 0)
    have hclose : Reads (fun r => ∃ brackets, InValue v (fun value =>
          .startTag (plainTag v element done) (.value ⟨none, name⟩ value)) q value.toList
            brackets r) [q.char] (Shows (v.on (.inside [])
          (.startTag (plainTag v element (done ++ [(name, value)])) .closing))) :=
      .of_forall fun brackets => reads_closingQuote element hname.ne_xmlns hlength q brackets
    have hrest := ih (hsplit ▸ hplain) (closes_closing v _)
    rw [hsplit]
    have hwhole := (hcloses.reads_gap hne hgap).append ((reads_attributeName _ hname).append
      (hequals.append (hopen.append (hread.append
        (hclose.append hrest)))))
    simpa only [List.append_assoc, List.singleton_append] using hwhole

end CallBridge.Markup
