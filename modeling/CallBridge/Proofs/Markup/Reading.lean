import CallBridge.Proofs.Markup.View
import Mathlib.Data.List.Induction

/-!
# Reading from one view to another

* `Accepts v ts v'` takes tokens from one view to another;
* `Reads P cs Q` takes characters from readers with one property to readers with another;
* `reads_char` reads one character by what the scanner and the reader make of it;
* `reads_word` reads the characters of a name.

Behind text the scanner may hold back a slash or brackets, which could begin a delimiter.
`heldRuns` lists what it may hold back, and `Scanner.step_released` says that any character
which does not complete the delimiter hands it out as text.
-/

namespace CallBridge.Markup

/-! ## Tokens -/

theorem Reader.acceptAll_append (r : Reader) (ts us : List Token) :
    r.acceptAll (ts ++ us) = (r.acceptAll ts >>= fun r => r.acceptAll us) := by
  induction ts generalizing r with
  | nil => rfl
  | cons t ts ih =>
    rw [List.cons_append, acceptAll, acceptAll, bind_assoc]
    exact bind_congr fun r => ih _

/-- Taking tokens leads from one view to another. -/
def Accepts (v : View) (ts : List Token) (v' : View) : Prop :=
  ∀ r, Shows v r → ∃ r', r.acceptAll ts = .ok r' ∧ Shows v' r'

/-- Taking one token as the only one. -/
theorem exists_acceptAll {v : View} {r : Reader} {t : Token}
    (h : ∃ r', r.accept t = .ok r' ∧ Shows v r') : ∃ r', r.acceptAll [t] = .ok r' ∧ Shows v r' := by
  obtain ⟨r', haccept, hr'⟩ := h
  refine ⟨{ r' with mark := r'.position }, ?_, hr'.view, hr'.pending, hr'.settled⟩
  rw [Reader.acceptAll, haccept]
  rfl

namespace Accepts

variable {v v' v'' : View} {t : Token} {ts us : List Token}

theorem nil (v : View) : Accepts v [] v :=
  fun r hr => ⟨r, rfl, hr⟩

theorem single (h : ∀ r, Shows v r → ∃ r', r.accept t = .ok r' ∧ Shows v' r') :
    Accepts v [t] v' :=
  fun r hr => exists_acceptAll (h r hr)

theorem append (hfirst : Accepts v ts v') (hrest : Accepts v' us v'') :
    Accepts v (ts ++ us) v'' := by
  intro r hr
  obtain ⟨r', hts, hr'⟩ := hfirst r hr
  obtain ⟨r'', hus, hr''⟩ := hrest r' hr'
  refine ⟨r'', ?_, hr''⟩
  rw [Reader.acceptAll_append, hts]
  exact hus

theorem cons (hfirst : Accepts v [t] v') (hrest : Accepts v' ts v'') : Accepts v (t :: ts) v'' :=
  hfirst.append hrest

end Accepts

/-! ## Characters -/

/-- The view reads the character as itself. -/
def View.Holds (v : View) (c : Char) : Prop :=
  Reader.Encoding.charsOf? v.encoding c = some [c]

/-- Reading characters leads from readers with one property to readers with another. -/
def Reads (P : Reader → Prop) (cs : List Char) (Q : Reader → Prop) : Prop :=
  ∀ r, P r → ∃ r', r.takeAll cs = .ok r' ∧ Q r'

namespace Reads

variable {P P' Q Q' R : Reader → Prop} {c : Char} {cs ds : List Char}

theorem nil (P : Reader → Prop) : Reads P [] P :=
  fun r hr => ⟨r, rfl, hr⟩

theorem append (hfirst : Reads P cs Q) (hrest : Reads Q ds R) : Reads P (cs ++ ds) R := by
  intro r hr
  obtain ⟨r', hcs, hr'⟩ := hfirst r hr
  obtain ⟨r'', hds, hr''⟩ := hrest r' hr'
  refine ⟨r'', ?_, hr''⟩
  rw [Reader.takeAll_append, hcs]
  exact hds

theorem cons (hfirst : Reads P [c] Q) (hrest : Reads Q cs R) : Reads P (c :: cs) R :=
  hfirst.append hrest

theorem mono (h : Reads P cs Q) (hQ : ∀ r, Q r → Q' r) : Reads P cs Q' := by
  intro r hr
  obtain ⟨r', hcs, hr'⟩ := h r hr
  exact ⟨r', hcs, hQ r' hr'⟩

/-- Readers with one of several properties are read from if those with each of them are. -/
theorem of_forall {α : Type} {P : α → Reader → Prop} (h : ∀ a, Reads (P a) cs Q) :
    Reads (fun r => ∃ a, P a r) cs Q := by
  rintro r ⟨a, hr⟩
  exact h a r hr

end Reads

/-- The reader behind a character whose tokens are still to come. -/
def Reader.behind (r : Reader) (scanner : Scanner) (c : Char) : Reader :=
  { r with position := r.position.after c, expansions := 0, scanner := scanner }

theorem Shows.behind {v : View} {scanner : Scanner} {place : Place} {r : Reader}
    (h : Shows (v.on scanner place) r) (scanner' : Scanner) (c : Char) :
    Shows (v.on scanner' place) (r.behind scanner' c) := by
  refine ⟨?_, h.pending, h.settled⟩
  have hview := h.view
  rw [Reader.view, View.on, View.mk.injEq] at hview
  rw [Reader.view, View.on, View.mk.injEq]
  exact ⟨rfl, hview.2⟩

/-- A character that the encoding has as itself is taken as it is. -/
theorem Reader.take_eq_takeDecoded {r : Reader} {c : Char}
    (h : Encoding.charsOf? r.encoding c = some [c]) : r.take c = r.takeDecoded c := by
  rw [take, h]
  exact bind_pure (r.takeDecoded c)

/-- One character is read by the tokens it completes. -/
theorem Shows.exists_takeAll {v v' : View} {scanner scanner' : Scanner} {place : Place} {r : Reader}
    {c : Char} {ts : List Token} (hr : Shows (v.on scanner place) r) (hholds : v.Holds c)
    (hscan : scanner.step c = .ok (scanner', ts))
    (haccept : ∃ r', (r.behind scanner' c).acceptAll ts = .ok r' ∧ Shows v' r') :
    ∃ r', r.takeAll [c] = .ok r' ∧ Shows v' r' := by
  have hencoding : r.encoding = v.encoding := congrArg View.encoding hr.view
  have hscanner : r.scanner = scanner := congrArg View.scanner hr.view
  obtain ⟨r', hall, hr'⟩ := haccept
  have hstep : Reader.step { r with position := r.position.after c, expansions := 0 } c =
      .ok r' := by
    simp only [Reader.step, hscanner, hscan]
    exact hall
  have htake : r.take c = .ok r' := by
    rw [Reader.take_eq_takeDecoded (hencoding ▸ hholds)]
    change Reader.feedWith (Reader.feed 9) 0 _ [c] = .ok r'
    rw [Reader.feedWith, hstep]
    simp only [bind, Except.bind, hr'.pending, List.isEmpty_nil, if_true, Reader.feedWith]
  refine ⟨r', ?_, hr'⟩
  rw [Reader.takeAll, List.foldlM_cons, htake]
  rfl

theorem reads_char {v v' : View} {scanner scanner' : Scanner} {place : Place} {c : Char}
    {ts : List Token} (hholds : v.Holds c) (hscan : scanner.step c = .ok (scanner', ts))
    (haccept : Accepts (v.on scanner' place) ts v') :
    Reads (Shows (v.on scanner place)) [c] (Shows v') :=
  fun _ hr => hr.exists_takeAll hholds hscan (haccept _ (hr.behind scanner' c))

/-! ## Words -/

/-- The word that characters make. -/
def Word.ofList (cs : List Char) : Word :=
  cs.foldl push {}

theorem Word.ofList_concat (cs : List Char) (c : Char) :
    ofList (cs ++ [c]) = (ofList cs).push c := by
  rw [ofList, List.foldl_append, ofList]
  rfl

@[simp] theorem Word.toList_ofList (cs : List Char) : (ofList cs).toList = cs := by
  induction cs using List.reverseRecOn with
  | nil => rfl
  | append_singleton cs c ih => rw [ofList_concat, toList_push, ih]

theorem Word.isEmpty_ofList (cs : List Char) : (ofList cs).isEmpty = cs.isEmpty := by
  rw [isEmpty, Bool.eq_iff_iff, List.isEmpty_iff, List.isEmpty_iff, ← List.reverse_eq_nil_iff,
    ← toList, toList_ofList]

theorem Word.width_ofList (cs : List Char) : (ofList cs).width = Text.width cs := by
  induction cs using List.reverseRecOn with
  | nil => rfl
  | append_singleton cs c ih => rw [ofList_concat, push, ih, Text.width_append]; rfl

/-- A word is read character by character, where each character is a token of its own. -/
theorem reads_word {v : View} {scanner : Scanner} {place : Word → Place} {cs : List Char}
    (hholds : ∀ c ∈ cs, v.Holds c) (hscan : ∀ c ∈ cs, scanner.step c = .ok (scanner, [.char c]))
    (done : List Char)
    (haccept : ∀ front c, front ++ [c] <+: cs →
      Accepts (v.on scanner (place (.ofList (done ++ front)))) [.char c]
        (v.on scanner (place ((Word.ofList (done ++ front)).push c)))) :
    Reads (Shows (v.on scanner (place (.ofList done)))) cs
      (Shows (v.on scanner (place (.ofList (done ++ cs))))) := by
  induction cs generalizing done with
  | nil => rw [List.append_nil]; exact .nil _
  | cons c cs ih =>
    obtain ⟨hc, hcs⟩ := List.forall_mem_cons.mp hholds
    obtain ⟨hscanc, hscancs⟩ := List.forall_mem_cons.mp hscan
    have hfirst := haccept [] c (by simp)
    rw [List.append_nil, ← Word.ofList_concat] at hfirst
    have hrest := ih hcs hscancs (done ++ [c]) fun front d hfront => by
      have := haccept (c :: front) d (by simpa using hfront)
      simpa only [List.append_assoc, List.singleton_append] using this
    rw [List.append_assoc, List.singleton_append] at hrest
    exact (reads_char hc hscanc hfirst).cons hrest

/-! ## What the scanner holds back behind text -/

/-- What may be held back behind text: nothing, or what could begin a delimiter. -/
def heldRuns : List (List Char) :=
  [[], ['/'], [']'], [']', ']']]

namespace Scanner

variable {held : List Char} {c : Char}

/-- The scanner in content and in tags. -/
def inside (held : List Char) : Scanner :=
  ⟨.content, .content, held⟩

/-- A character that completes no delimiter hands out what is held back. -/
theorem step_released (hheld : held ∈ heldRuns) (hangle : c ≠ '>') (hbracket : c ≠ ']') :
    (inside held).step c = (inside held).release .content (held.map .char) c := by
  simp only [heldRuns, List.mem_cons, List.not_mem_nil, or_false] at hheld
  rcases hheld with rfl | rfl | rfl | rfl
  · rw [release, step, inside]
    simp only [on, List.map_nil, List.nil_append]
    split <;> simp_all
  · simp [step, inside, hangle]
  · simp [step, inside, afterBracket, hbracket]
  · simp [step, inside, afterBrackets, hbracket, hangle]

theorem step_open (hheld : held ∈ heldRuns) :
    (inside held).step '<' = .ok (inside ['<'], held.map .char) := by
  rw [step_released hheld (by decide) (by decide)]
  simp [release, on, start, inside, hold]

theorem step_slash (hheld : held ∈ heldRuns) :
    (inside held).step '/' = .ok (inside ['/'], held.map .char) := by
  rw [step_released hheld (by decide) (by decide)]
  simp [release, on, start, inside, hold]

/-- A character that begins no delimiter of several characters is a token. -/
theorem step_plain (hheld : held ∈ heldRuns) (hc : c ∉ ['<', '/', ']', '>']) :
    (inside held).step c = .ok (inside [], held.map .char ++ [plainToken c]) := by
  simp only [List.mem_cons, List.not_mem_nil, or_false, not_or] at hc
  obtain ⟨hopen, hslash, hbracket, hangle⟩ := hc
  rw [step_released hheld hangle hbracket]
  simp [release, on, start, inside, give, hopen, hslash, hbracket]

/-- A character that is no delimiter is a token as it is. -/
theorem plainToken_eq_char (hc : c ∉ ['\'', '"', '>', '=', '&', ';']) :
    plainToken c = .char c := by
  simp only [List.mem_cons, List.not_mem_nil, or_false, not_or] at hc
  obtain ⟨hsingle, hdouble, hangle, hequals, hampersand, hsemicolon⟩ := hc
  simp [plainToken, Quote.ofChar?, hsingle, hdouble, hangle, hequals, hampersand, hsemicolon]

end Scanner

end CallBridge.Markup
