import CallBridge.Proofs.Header.Callee

/-!
# Readings of what follows the marker

Behind `GLAPI` a line leaves three choices: how many blanks stand before the return type, how far
the return type reaches, and how far the arguments reach.  `MarkerReading.Outranks` puts the
readings in order, and the matcher takes the first one.

* `Prototype.exists_of_ofReturn?`, `Prototype.exists_ofReturn?_eq`: the shortest return type is
  taken;
* `MarkerReading.blanks_cases`: the blanks behind the marker end inside the return type, or the
  return type is blank;
* `exists_of_ofMarker?`, `MarkerReading.exists_ofMarker?_eq`: what is found outranks all other
  readings, and of a text that has a reading one is found.
-/

namespace CallBridge.Header

open Text

theorem exists_eq_append_pair {cs : List Char} (h : 3 ≤ cs.length) :
    ∃ front b c, front ≠ [] ∧ cs = front ++ [b, c] := by
  rcases List.eq_nil_or_concat' cs with rfl | ⟨cs, c, rfl⟩
  · simp at h
  rcases List.eq_nil_or_concat' cs with rfl | ⟨front, b, rfl⟩
  · simp at h
  · refine ⟨front, b, c, ?_, by rw [List.append_assoc]; rfl⟩
    rintro rfl
    simp at h

namespace Prototype

variable {cs returnType rest gap : List Char} {p : Prototype} {b c : Char}

/-! ## Return types -/

/-- What is found behind the marker and its blanks is a return type and a callee. -/
theorem exists_of_ofReturn? (h : ofReturn? cs = some p) :
    ∃ rest, p.returnType ≠ [] ∧ cs = p.returnType ++ rest ∧
      ofCallee? rest = some (p.name, p.arguments) := by
  induction cs generalizing p with
  | nil => contradiction
  | cons c cs ih =>
    rw [ofReturn?] at h
    cases hcallee : ofCallee? cs with
    | some callee =>
      rw [hcallee] at h
      obtain rfl := Option.some.inj h
      exact ⟨cs, List.cons_ne_nil _ _, rfl, hcallee⟩
    | none =>
      rw [hcallee] at h
      obtain ⟨q, hq, rfl⟩ := Option.map_eq_some_iff.mp h
      obtain ⟨rest, -, rfl, hrest⟩ := ih hq
      exact ⟨rest, List.cons_ne_nil _ _, rfl, hrest⟩

/-- Wherever a callee begins, a return type is found that reaches no further. -/
theorem exists_ofReturn?_eq (hne : returnType ≠ [])
    (hcallee : ∃ callee, ofCallee? rest = some callee) :
    ∃ p, ofReturn? (returnType ++ rest) = some p ∧ p.returnType.length ≤ returnType.length := by
  induction returnType with
  | nil => exact absurd rfl hne
  | cons c returnType ih =>
    rw [List.cons_append, ofReturn?]
    cases hearly : ofCallee? (returnType ++ rest) with
    | some callee => exact ⟨_, rfl, Nat.succ_le_succ (Nat.zero_le _)⟩
    | none =>
      have hmore : returnType ≠ [] := by
        rintro rfl
        obtain ⟨callee, hsome⟩ := hcallee
        rw [List.nil_append, hsome] at hearly
        contradiction
      obtain ⟨p, hp, hle⟩ := ih hmore
      exact ⟨_, congrArg (Option.map _) hp, Nat.succ_le_succ hle⟩

/-- Of three blanks or more, the last but one can be the return type. -/
theorem ofBlanks?_append (hne : gap ≠ []) (hgap : ∀ d ∈ gap ++ [b, c], isBlank d = true)
    (hrest : ∀ d ∈ rest.head?, isBlank d = false) :
    ofBlanks? (gap ++ [b, c] ++ rest) =
      (ofCallee? (c :: rest)).map fun callee => ⟨[b], callee.1, callee.2⟩ := by
  have hcount : ((gap ++ [b, c] ++ rest).takeWhile isBlank).length = gap.length + 2 := by
    rw [(takeWhile_append_stop hgap hrest).1, List.length_append]
    rfl
  have hdrop : (gap ++ [b, c] ++ rest).drop gap.length = b :: c :: rest := by
    rw [List.append_assoc, List.drop_left]
    rfl
  have hlong : 3 ≤ gap.length + 2 := by
    have := List.length_pos_iff.mpr hne
    omega
  simp only [ofBlanks?, hcount, Nat.add_sub_cancel, hdrop, if_pos hlong]

/-- A return type that is a blank is the last but one of three blanks or more. -/
theorem exists_of_ofBlanks? {blanks : List Char} (hblanks : ∀ d ∈ blanks, isBlank d = true)
    (hrest : ∀ d ∈ rest.head?, isBlank d = false) (h : ofBlanks? (blanks ++ rest) = some p) :
    ∃ gap b c, gap ≠ [] ∧ blanks = gap ++ [b, c] ∧ p.returnType = [b] ∧
      ofCallee? (c :: rest) = some (p.name, p.arguments) := by
  have hlong : 3 ≤ blanks.length := by
    unfold ofBlanks? at h
    rw [(takeWhile_append_stop hblanks hrest).1] at h
    simp only at h
    split at h
    · contradiction
    · split at h
      · assumption
      · contradiction
  obtain ⟨gap, b, c, hne, rfl⟩ := exists_eq_append_pair hlong
  rw [ofBlanks?_append hne hblanks hrest] at h
  obtain ⟨callee, hcallee, rfl⟩ := Option.map_eq_some_iff.mp h
  exact ⟨gap, b, c, hne, rfl, rfl, hcallee⟩

theorem ofMarker?_append {blanks : List Char} (hne : blanks ≠ [])
    (hblanks : ∀ d ∈ blanks, isBlank d = true) (hrest : ∀ d ∈ rest.head?, isBlank d = false) :
    ofMarker? (blanks ++ rest) = (ofReturn? rest).or (ofBlanks? (blanks ++ rest)) := by
  rw [ofMarker?, afterBlanks?_append hne hblanks hrest]

end Prototype

/-! ## Behind the marker -/

/-- A way to read what follows the marker: blanks, a return type and a callee. -/
structure MarkerReading extends CalleeReading where
  markerGap : List Char
  returnType : List Char
  markerGap_ne_nil : markerGap ≠ []
  markerGap_blank : ∀ c ∈ markerGap, isBlank c = true
  returnType_ne_nil : returnType ≠ []

namespace MarkerReading

/-- The text that is read. -/
def text (r : MarkerReading) : List Char :=
  r.markerGap ++ (r.returnType ++ r.toCalleeReading.text)

/-- The prototype of a reading. -/
def prototype (r : MarkerReading) : Prototype :=
  ⟨r.returnType, r.name, r.arguments⟩

/-- More blanks behind the marker come first, then a shorter return type, then longer
arguments. -/
def Outranks (r s : MarkerReading) : Prop :=
  s.markerGap.length < r.markerGap.length ∨
    r.markerGap.length = s.markerGap.length ∧
      (r.returnType.length < s.returnType.length ∨
        r.returnType.length = s.returnType.length ∧ s.arguments.length < r.arguments.length)

/-- A reading that outranks all others of its text. -/
def IsPreferred (r : MarkerReading) : Prop :=
  ∀ s : MarkerReading, s.text = r.text → s = r ∨ r.Outranks s

variable {r s : MarkerReading} {blanks rest : List Char} {p : Prototype}

theorem eq_of_parts (hgap : r.markerGap = s.markerGap) (htype : r.returnType = s.returnType)
    (hcallee : r.toCalleeReading = s.toCalleeReading) : r = s := by
  obtain ⟨k, gap, returnType, _, _, _⟩ := r
  obtain ⟨l, gap', returnType', _, _, _⟩ := s
  cases hgap
  cases htype
  cases hcallee
  rfl

/-- To compare a reading with all others, each part is compared where the parts before it are
the same. -/
theorem eq_or_outranks (htext : s.text = r.text)
    (hgap : s.markerGap.length ≤ r.markerGap.length)
    (htype : s.markerGap.length = r.markerGap.length → r.returnType.length ≤ s.returnType.length)
    (harguments : ∀ k : CalleeReading, k.text = r.toCalleeReading.text →
      k.arguments.length ≤ r.arguments.length) : s = r ∨ r.Outranks s := by
  rcases Nat.lt_or_eq_of_le hgap with hgap | hgap
  · exact .inr (.inl hgap)
  rcases Nat.lt_or_eq_of_le (htype hgap) with htype | htype
  · exact .inr (.inr ⟨hgap.symm, .inl htype⟩)
  obtain ⟨hgaps, hrest⟩ := List.append_inj htext hgap
  obtain ⟨htypes, hcallee⟩ := List.append_inj hrest htype.symm
  rcases Nat.lt_or_eq_of_le (harguments s.toCalleeReading hcallee) with harguments | harguments
  · exact .inr (.inr ⟨hgap.symm, .inr ⟨htype, harguments⟩⟩)
  · exact .inl (eq_of_parts hgaps htypes (CalleeReading.eq_of_length_arguments hcallee harguments))

theorem isBlank_head_text (k : CalleeReading) : ∃ c ∈ k.text.head?, isBlank c = true := by
  obtain ⟨c, cs, hgap⟩ := List.exists_cons_of_ne_nil k.returnGap_ne_nil
  refine ⟨c, ?_, k.returnGap_blank c (hgap ▸ List.mem_cons_self)⟩
  rw [CalleeReading.text_eq, hgap]
  rfl

/-- The blanks behind the marker end inside the return type, or before `APIENTRY`, and then the
return type is blank. -/
theorem blanks_cases (hblanks : ∀ c ∈ blanks, isBlank c = true)
    (hrest : ∀ c ∈ rest.head?, isBlank c = false) (h : s.text = blanks ++ rest) :
    (∃ front back, back ≠ [] ∧ blanks = s.markerGap ++ front ∧ s.returnType = front ++ back ∧
        rest = back ++ s.toCalleeReading.text) ∨
      blanks = s.markerGap ++ (s.returnType ++ s.returnGap) ∧
        s.toCalleeReading.text = s.returnGap ++ rest := by
  have hgap : ∃ front, blanks = s.markerGap ++ front ∧
      s.returnType ++ s.toCalleeReading.text = front ++ rest := by
    rcases List.append_eq_append_iff.mp h with ⟨front, hfront, htail⟩ | ⟨more, hmore, htail⟩
    · exact ⟨front, hfront, htail⟩
    · cases more with
      | nil => exact ⟨[], by simpa using hmore.symm, by simpa using htail.symm⟩
      | cons c more =>
        have hblank := s.markerGap_blank c (hmore ▸ List.mem_append_right _ List.mem_cons_self)
        rw [hrest c (htail ▸ rfl)] at hblank
        contradiction
  obtain ⟨front, hfront, htail⟩ := hgap
  rcases List.append_eq_append_iff.mp htail with ⟨gap, hgap, hcallee⟩ | ⟨back, hback, hsplit⟩
  · rw [CalleeReading.text_eq] at hcallee
    have hstop := CalleeReading.not_isBlank_convention
      (s.nameGap ++ (s.name ++ (s.listGap ++ '(' :: s.listText)))
    have hgap_blank : ∀ c ∈ gap, isBlank c = true := fun c hc =>
      hblanks c (hfront ▸ List.mem_append_right _ (hgap ▸ List.mem_append_right _ hc))
    obtain ⟨hreturn, -⟩ := eq_of_append_stop s.returnGap_blank hstop hgap_blank hrest hcallee
    refine .inr ⟨by rw [hfront, hgap, hreturn], ?_⟩
    rw [CalleeReading.text_eq, hcallee, hreturn]
  · refine .inl ⟨front, back, ?_, hfront, hback, hsplit⟩
    rintro rfl
    obtain ⟨c, hc, hblank⟩ := isBlank_head_text s.toCalleeReading
    rw [List.nil_append] at hsplit
    rw [hrest c (hsplit ▸ hc)] at hblank
    contradiction

/-- What can be read behind a marker is found. -/
theorem exists_ofMarker?_eq (s : MarkerReading) : ∃ p, Prototype.ofMarker? s.text = some p := by
  obtain ⟨blanks, hblanks, hsplit⟩ := exists_blanks_append_trimStart s.text
  have hrest := not_isBlank_head?_trimStart s.text
  generalize trimStart s.text = rest at hsplit hrest
  have hgap : s.markerGap.length ≤ blanks.length := by
    rcases blanks_cases hblanks hrest hsplit with ⟨front, back, -, hfront, -, -⟩ | ⟨hall, -⟩
    · simp [hfront]
    · simp [hall]
  have hne : blanks ≠ [] := by
    rintro rfl
    exact s.markerGap_ne_nil (List.length_eq_zero_iff.mp (Nat.le_zero.mp hgap))
  rw [hsplit, Prototype.ofMarker?_append hne hblanks hrest]
  rcases blanks_cases hblanks hrest hsplit with ⟨front, back, hback, -, -, hsplit⟩ | ⟨hall, htext⟩
  · obtain ⟨p, hp, -⟩ := Prototype.exists_ofReturn?_eq hback s.exists_callee
    exact ⟨p, by rw [hsplit, hp, Option.some_or]⟩
  · cases hreturn : Prototype.ofReturn? rest with
    | some p => exact ⟨p, rfl⟩
    | none =>
      have hlong : 3 ≤ blanks.length := by
        have hgap := List.length_pos_iff.mpr s.markerGap_ne_nil
        have htype := List.length_pos_iff.mpr s.returnType_ne_nil
        have hreturn := List.length_pos_iff.mpr s.returnGap_ne_nil
        rw [hall, List.length_append, List.length_append]
        omega
      obtain ⟨gap, b, c, hgap_ne, rfl⟩ := exists_eq_append_pair hlong
      have hc : isBlank c = true := hblanks c (by simp)
      -- The callee can be read behind a single blank as well.
      let k : CalleeReading := { s.toCalleeReading with
        returnGap := [c]
        returnGap_ne_nil := List.cons_ne_nil c []
        returnGap_blank := by simpa using hc }
      have hk : k.text = c :: rest := by
        rw [CalleeReading.text_eq] at htext ⊢
        exact congrArg (c :: ·) (List.append_cancel_left htext)
      obtain ⟨callee, hcallee⟩ := k.exists_callee
      rw [Prototype.ofBlanks?_append hgap_ne hblanks hrest, ← hk, hcallee]
      exact ⟨_, rfl⟩

/-- If a return type is found behind all blanks, no reading takes more of them. -/
theorem exists_of_ofReturn? (hne : blanks ≠ []) (hblanks : ∀ c ∈ blanks, isBlank c = true)
    (hrest : ∀ c ∈ rest.head?, isBlank c = false) (h : Prototype.ofReturn? rest = some p) :
    ∃ r : MarkerReading, r.text = blanks ++ rest ∧ r.prototype = p ∧ r.IsPreferred := by
  obtain ⟨tail, htype_ne, rfl, hcallee⟩ := Prototype.exists_of_ofReturn? h
  obtain ⟨k, rfl, hname, harguments⟩ := exists_of_ofCallee? hcallee
  let r : MarkerReading := ⟨k, blanks, p.returnType, hne, hblanks, htype_ne⟩
  refine ⟨r, rfl, ?_, fun s hs => ?_⟩
  · show Prototype.mk p.returnType k.name k.arguments = p
    rw [hname, harguments]
  have hlongest : ∀ l : CalleeReading, l.text = k.text → l.arguments.length ≤ k.arguments.length :=
    fun l hl => harguments ▸ CalleeReading.length_arguments_le (hl ▸ hcallee)
  rcases blanks_cases hblanks hrest hs with ⟨front, back, hback, hfront, htype, hsplit⟩ | ⟨hall, -⟩
  · refine eq_or_outranks hs (by simp [r, hfront]) (fun hlength => ?_) hlongest
    have hnil : front = [] := by
      have hlengths : s.markerGap.length = (s.markerGap ++ front).length := hfront ▸ hlength
      simpa using hlengths
    obtain ⟨shortest, hshortest, hle⟩ := Prototype.exists_ofReturn?_eq hback s.exists_callee
    rw [← hsplit, h] at hshortest
    obtain rfl := Option.some.inj hshortest
    rw [htype, hnil]
    exact hle
  · have hshort : s.markerGap.length < blanks.length := by
      have htype := List.length_pos_iff.mpr s.returnType_ne_nil
      rw [hall, List.length_append, List.length_append]
      omega
    exact .inr (.inl hshort)

/-- If no return type is found behind all blanks, the return type is blank in every reading. -/
theorem exists_of_ofBlanks? (hblanks : ∀ c ∈ blanks, isBlank c = true)
    (hrest : ∀ c ∈ rest.head?, isBlank c = false) (hnone : Prototype.ofReturn? rest = none)
    (h : Prototype.ofBlanks? (blanks ++ rest) = some p) :
    ∃ r : MarkerReading, r.text = blanks ++ rest ∧ r.prototype = p ∧ r.IsPreferred := by
  obtain ⟨gap, b, c, hgap_ne, rfl, htype, hcallee⟩ := Prototype.exists_of_ofBlanks? hblanks hrest h
  obtain ⟨k, hk, hname, harguments⟩ := exists_of_ofCallee? hcallee
  let r : MarkerReading := ⟨k, gap, [b], hgap_ne,
    fun d hd => hblanks d (List.mem_append_left _ hd), List.cons_ne_nil b []⟩
  have htext : r.text = gap ++ [b, c] ++ rest := by
    show gap ++ ([b] ++ k.text) = _
    rw [hk, List.append_assoc]
    rfl
  refine ⟨r, htext, ?_, fun s hs => ?_⟩
  · show Prototype.mk [b] k.name k.arguments = p
    rw [hname, harguments, ← htype]
  rcases blanks_cases hblanks hrest (hs.trans htext) with
    ⟨front, back, hback, -, -, hsplit⟩ | ⟨hall, -⟩
  · obtain ⟨shortest, hshortest, -⟩ := Prototype.exists_ofReturn?_eq hback s.exists_callee
    rw [← hsplit, hnone] at hshortest
    contradiction
  · have hlengths : gap.length + 2 =
        s.markerGap.length + (s.returnType.length + s.returnGap.length) := by
      simpa using congrArg List.length hall
    have htype_pos := List.length_pos_iff.mpr s.returnType_ne_nil
    have hreturn_pos := List.length_pos_iff.mpr s.returnGap_ne_nil
    have hgap : s.markerGap.length ≤ gap.length := by omega
    refine eq_or_outranks hs hgap (fun _ => htype_pos) fun l hl => ?_
    exact harguments ▸ CalleeReading.length_arguments_le (hl ▸ hk ▸ hcallee)

end MarkerReading

/-- What is found behind a marker is the reading that outranks all others. -/
theorem exists_of_ofMarker? {cs : List Char} {p : Prototype}
    (h : Prototype.ofMarker? cs = some p) :
    ∃ r : MarkerReading, r.text = cs ∧ r.prototype = p ∧ r.IsPreferred := by
  have hafter : ∃ rest, afterBlanks? cs = some rest := by
    cases hafter : afterBlanks? cs with
    | none => rw [Prototype.ofMarker?, hafter] at h; contradiction
    | some rest => exact ⟨rest, rfl⟩
  obtain ⟨rest, hafter⟩ := hafter
  obtain ⟨blanks, hne, hblanks, hrest, rfl⟩ := afterBlanks?_eq_some_iff.mp hafter
  rw [Prototype.ofMarker?_append hne hblanks hrest] at h
  cases hreturn : Prototype.ofReturn? rest with
  | some q =>
    rw [hreturn] at h
    obtain rfl := Option.some.inj h
    exact MarkerReading.exists_of_ofReturn? hne hblanks hrest hreturn
  | none =>
    rw [hreturn, Option.none_or] at h
    exact MarkerReading.exists_of_ofBlanks? hblanks hrest hreturn h

end CallBridge.Header
