import CallBridge.Header.Reader
import CallBridge.Proofs.Header.Marker

/-!
# Readings of a line

A prototype line can often be cut into its parts in more than one way.  `Reading` is one such
way, and `Reading.Outranks` puts them in order: the first marker, then the most blanks behind it,
then the shortest return type, then the longest arguments.  The matcher finds the one reading
that outranks all others, and finds nothing only on lines without a reading.

* `Prototype.exists_of_afterMarkerFrom?`, `Prototype.exists_afterMarkerFrom?_eq`: the first marker
  with a blank behind it is taken;
* `Reading.exists_reading_of_suffix`: what a later marker begins, the first one begins as well;
* `find?_eq_some_iff`, `find?_eq_none_iff`: what is found on a line;
* `preferred_reading_of_line` puts it together.

A line holds no line feed, so any character may stand in a return type and in arguments.
-/

namespace CallBridge.Header

open Text

/-! ## The whole line -/

namespace Prototype

variable {cs rest before : List Char} {inWord : Bool}

/-- A marker that is found has no word character before it and a blank behind it. -/
theorem exists_of_afterMarkerFrom? (h : afterMarkerFrom? inWord cs = some rest) :
    ∃ before, cs = before ++ (marker ++ rest) ∧ (before = [] → inWord = false) ∧
      (∀ c ∈ before.getLast?, isWordChar c = false) ∧ ∃ c ∈ rest.head?, isBlank c = true := by
  induction cs generalizing inWord with
  | nil => contradiction
  | cons c cs ih =>
    -- A marker further on stands behind the character in front.
    have hlater : afterMarkerFrom? (isWordChar c) cs = some rest →
        ∃ before, c :: cs = before ++ (marker ++ rest) ∧ (before = [] → inWord = false) ∧
          (∀ d ∈ before.getLast?, isWordChar d = false) ∧ ∃ d ∈ rest.head?, isBlank d = true := by
      intro hmore
      obtain ⟨before, hsplit, hstart, hboundary, hblank⟩ := ih hmore
      refine ⟨c :: before, by rw [hsplit]; rfl, fun hnil => absurd hnil (List.cons_ne_nil c before),
        ?_, hblank⟩
      cases before with
      | nil =>
        intro d hd
        obtain rfl := Option.some.inj hd
        exact hstart rfl
      | cons b before => simpa using hboundary
    rw [afterMarkerFrom?] at h
    cases hafter : after? marker (c :: cs) with
    | none => rw [hafter] at h; exact hlater h
    | some found =>
      rw [hafter] at h
      simp only at h
      split at h
      · rename_i hhere
        obtain rfl := Option.some.inj h
        obtain ⟨hword, hblank⟩ := Bool.and_eq_true_iff.mp hhere
        have hsplit : c :: cs = marker ++ found := after?_eq_some_iff.mp hafter
        refine ⟨[], hsplit, fun _ => by simpa using hword, by simp, ?_⟩
        cases found with
        | nil => contradiction
        | cons d ds => exact ⟨d, rfl, hblank⟩
      · exact hlater h

/-- Wherever a marker stands with a blank behind it, one is found that stands no further on. -/
theorem exists_afterMarkerFrom?_eq (hstart : before = [] → inWord = false)
    (hboundary : ∀ c ∈ before.getLast?, isWordChar c = false)
    (hblank : ∃ c ∈ rest.head?, isBlank c = true) :
    ∃ found, afterMarkerFrom? inWord (before ++ (marker ++ rest)) = some found ∧
      rest.length ≤ found.length := by
  induction before generalizing inWord with
  | nil =>
    have hafter : after? marker ('G' :: (['L', 'A', 'P', 'I'] ++ rest)) = some rest :=
      after?_append marker rest
    have hhere : (!inWord && (rest.head?.map isBlank).getD false) = true := by
      obtain ⟨c, hc, hblank⟩ := hblank
      rw [hstart rfl, Option.mem_def.mp hc]
      exact hblank
    refine ⟨rest, ?_, Nat.le_refl _⟩
    show afterMarkerFrom? inWord ('G' :: (['L', 'A', 'P', 'I'] ++ rest)) = _
    rw [afterMarkerFrom?, hafter]
    exact if_pos hhere
  | cons c before ih =>
    have hlater : ∃ found, afterMarkerFrom? (isWordChar c) (before ++ (marker ++ rest)) = some found ∧
        rest.length ≤ found.length := by
      refine ih ?_ ?_
      · rintro rfl
        exact hboundary c rfl
      · cases before with
        | nil => simp
        | cons b before => simpa using hboundary
    rw [List.cons_append, afterMarkerFrom?]
    cases hafter : after? marker (c :: (before ++ (marker ++ rest))) with
    | none => exact hlater
    | some found =>
      simp only
      split
      · refine ⟨found, rfl, ?_⟩
        have hlengths := congrArg List.length (after?_eq_some_iff.mp hafter)
        simp only [List.length_cons, List.length_append] at hlengths
        have : marker.length = 5 := rfl
        omega
      · exact hlater

end Prototype

/-- A way to read a line as a prototype: anything that no word character ends, the marker, blanks,
a return type and a callee. -/
structure Reading extends MarkerReading where
  before : List Char
  boundary : ∀ c ∈ before.getLast?, isWordChar c = false

namespace Reading

/-- The line that is read. -/
def text (r : Reading) : List Char :=
  r.before ++ (Prototype.marker ++ r.toMarkerReading.text)

/-- All up to the opening parenthesis of the arguments. -/
def beforeArguments (r : Reading) : List Char :=
  r.before ++ (Prototype.marker ++ (r.markerGap ++ (r.returnType ++ r.headText)))

theorem text_eq (r : Reading) :
    r.text = r.beforeArguments ++ (r.arguments ++ ')' :: (r.endGap ++ ';' :: r.after)) := by
  simp only [text, beforeArguments, MarkerReading.text, CalleeReading.text, CalleeReading.listText,
    List.append_assoc]

/-- A marker further left comes first, and the rest counts for readings of one marker. -/
def Outranks (r s : Reading) : Prop :=
  r.before.length < s.before.length ∨
    r.before.length = s.before.length ∧ r.toMarkerReading.Outranks s.toMarkerReading

/-- A reading that outranks all others of its line. -/
def IsPreferred (r : Reading) : Prop :=
  ∀ s : Reading, s.text = r.text → s = r ∨ r.Outranks s

variable {r s : Reading} {line : List Char} {p : Prototype}

theorem eq_of_parts (hbefore : r.before = s.before)
    (hbehind : r.toMarkerReading = s.toMarkerReading) : r = s := by
  obtain ⟨m, before, _⟩ := r
  obtain ⟨n, before', _⟩ := s
  cases hbefore
  cases hbehind
  rfl

theorem Outranks.asymm (h : r.Outranks s) : ¬ s.Outranks r := by
  unfold Outranks MarkerReading.Outranks at *
  omega

/-- A line has one preferred reading at most. -/
theorem IsPreferred.unique (hr : r.IsPreferred) (hs : s.IsPreferred) (h : r.text = s.text) :
    r = s := by
  rcases hs r h with heq | hout
  · exact heq
  · rcases hr s h.symm with heq | hout'
    · exact heq.symm
    · exact absurd hout' hout.asymm

theorem isBlank_head_text (m : MarkerReading) : ∃ c ∈ m.text.head?, isBlank c = true := by
  obtain ⟨c, cs, hgap⟩ := List.exists_cons_of_ne_nil m.markerGap_ne_nil
  refine ⟨c, ?_, m.markerGap_blank c (hgap ▸ List.mem_cons_self)⟩
  rw [MarkerReading.text, hgap]
  rfl

/-- What can be read behind one marker can be read behind every earlier one, with a longer return
type. -/
theorem exists_reading_of_suffix {rest more : List Char} {m : MarkerReading} (hne : more ≠ [])
    (hrest : rest = more ++ m.text) (hblank : ∃ c ∈ rest.head?, isBlank c = true) :
    ∃ n : MarkerReading, n.text = rest := by
  obtain ⟨c, cs, rfl⟩ := List.exists_cons_of_ne_nil hne
  obtain ⟨d, hd, hblank⟩ := hblank
  rw [hrest] at hd
  obtain rfl := Option.some.inj hd
  refine ⟨⟨m.toCalleeReading, [c], cs ++ (m.markerGap ++ m.returnType), List.cons_ne_nil c [],
    by simpa using hblank, ?_⟩, ?_⟩
  · simp [m.returnType_ne_nil]
  · rw [hrest, MarkerReading.text, MarkerReading.text]
    simp only [List.append_assoc, List.cons_append, List.nil_append]

/-- A line that can be read as a prototype is. -/
theorem exists_find?_eq (s : Reading) : ∃ p, Prototype.find? s.text = some p := by
  obtain ⟨rest, hfound, hle⟩ := Prototype.exists_afterMarkerFrom?_eq
    (fun _ => Eq.refl false) s.boundary (isBlank_head_text s.toMarkerReading)
  obtain ⟨before, hsplit, -, -, hblank⟩ := Prototype.exists_of_afterMarkerFrom? hfound
  have hreads : ∃ n : MarkerReading, n.text = rest := by
    have hown : s.toMarkerReading.text <:+ s.text :=
      ⟨s.before ++ Prototype.marker, List.append_assoc _ _ _⟩
    have hrest : rest <:+ s.text :=
      ⟨before ++ Prototype.marker, by rw [List.append_assoc, text, hsplit]⟩
    obtain ⟨more, hmore⟩ := List.suffix_of_suffix_length_le hown hrest hle
    cases more with
    | nil => exact ⟨s.toMarkerReading, hmore⟩
    | cons c more => exact exists_reading_of_suffix (List.cons_ne_nil c more) hmore.symm hblank
  obtain ⟨n, rfl⟩ := hreads
  obtain ⟨p, hp⟩ := n.exists_ofMarker?_eq
  exact ⟨p, by rw [Prototype.find?, Prototype.afterMarker?, text, hfound]; exact hp⟩

end Reading

/-- What is found on a line is the reading that outranks all others. -/
theorem exists_of_find? {line : List Char} {p : Prototype} (h : Prototype.find? line = some p) :
    ∃ r : Reading, r.text = line ∧ r.prototype = p ∧ r.IsPreferred := by
  obtain ⟨rest, hfound, hmarker⟩ := Option.bind_eq_some_iff.mp h
  obtain ⟨before, rfl, -, hboundary, hblank⟩ := Prototype.exists_of_afterMarkerFrom? hfound
  obtain ⟨m, rfl, hm, hpreferred⟩ := exists_of_ofMarker? hmarker
  refine ⟨⟨m, before, hboundary⟩, rfl, hm, fun s hs => ?_⟩
  -- The marker that was found is the first one with a blank behind it.
  obtain ⟨first, hfirst, hle⟩ := Prototype.exists_afterMarkerFrom?_eq
    (fun _ => Eq.refl false) s.boundary (Reading.isBlank_head_text s.toMarkerReading)
  have hagain : Prototype.afterMarkerFrom? false s.text = some m.text := hs ▸ hfound
  obtain rfl := Option.some.inj (hfirst.symm.trans hagain)
  have hlengths := congrArg List.length hs
  simp only [Reading.text, List.length_append] at hlengths
  rcases Nat.lt_or_eq_of_le (show before.length ≤ s.before.length by omega) with hlater | hsame
  · exact .inr (.inl hlater)
  · obtain ⟨hbefore, hbehind⟩ := List.append_inj hs hsame.symm
    rcases hpreferred s.toMarkerReading (List.append_cancel_left hbehind) with heq | hout
    · exact .inl (Reading.eq_of_parts hbefore heq)
    · exact .inr (.inr ⟨hsame, hout⟩)

theorem find?_eq_some_iff {line : List Char} {p : Prototype} :
    Prototype.find? line = some p ↔
      ∃ r : Reading, r.text = line ∧ r.IsPreferred ∧ r.prototype = p := by
  constructor
  · intro h
    obtain ⟨r, hr, hp, hpreferred⟩ := exists_of_find? h
    exact ⟨r, hr, hpreferred, hp⟩
  · rintro ⟨r, rfl, hpreferred, rfl⟩
    obtain ⟨p, hp⟩ := r.exists_find?_eq
    obtain ⟨s, hs, rfl, hs_preferred⟩ := exists_of_find? hp
    rw [hp, hpreferred.unique hs_preferred hs.symm]

theorem find?_eq_none_iff {line : List Char} :
    Prototype.find? line = none ↔ ¬ ∃ r : Reading, r.text = line := by
  constructor
  · rintro hnone ⟨r, rfl⟩
    obtain ⟨p, hp⟩ := r.exists_find?_eq
    rw [hnone] at hp
    contradiction
  · intro hnever
    cases hfind : Prototype.find? line with
    | none => rfl
    | some p =>
      obtain ⟨r, hr, -⟩ := exists_of_find? hfind
      exact absurd ⟨r, hr⟩ hnever

/-- How a line is read as a prototype, whatever stands on it.

* A prototype is found if and only if the line, without blanks at its ends, can be cut into the
  parts of a prototype.
* The parts that are taken are those of the reading with the leftmost marker, then the most blanks
  behind the marker, then the shortest return type, then the longest arguments.
* A line is passed over if and only if it is no section comment and cannot be read. -/
theorem preferred_reading_of_line (raw : List Char) :
    ((∃ p, Prototype.find? (trim raw) = some p) ↔ ∃ r : Reading, r.text = trim raw) ∧
    (∀ p, Prototype.find? (trim raw) = some p ↔
      ∃ r : Reading, r.text = trim raw ∧ r.IsPreferred ∧ r.prototype = p) ∧
    (lineKind raw = .other ↔
      sectionFeature? (trim raw) = none ∧ ¬ ∃ r : Reading, r.text = trim raw) := by
  refine ⟨?_, fun p => find?_eq_some_iff, ?_⟩
  · rw [← not_iff_not, ← find?_eq_none_iff, not_exists, Option.eq_none_iff_forall_ne_some]
  · rw [← find?_eq_none_iff, lineKind]
    cases sectionFeature? (trim raw) with
    | some feature => exact iff_of_false nofun nofun
    | none =>
      cases Prototype.find? (trim raw) with
      | some p => exact iff_of_false nofun nofun
      | none => exact iff_of_true rfl ⟨rfl, rfl⟩

end CallBridge.Header
