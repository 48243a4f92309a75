import CallBridge.Generated.Preresolution
import CallBridge.Generated.Wrapper
import CallBridge.Proofs.BlankParts

/-!
# Names inside the tokens of generated code

Generated code has the name of a function in string literals, where it is looked up and where a call
is traced, and in the comment that stands for a wrapper left out.  The literals escape quotes and
backslashes; everything else is written as it is, and the comment escapes nothing.

* `readLiteral?` reads a string literal as C does, and `HoldsLiteral` says that it finds a value at
  a place in a line;
* `readCharacters?_escapeChars_cons`: one character of an escaped text.  A line break is the only
  one that is not read back, so a name stays inside its literals if and only if it is written on one
  line (`holdsLiteral_iff`);
* `isOneComment_iff`: a name stays inside its comment if and only if it does not end a comment
  itself;
* `Source.name_tokens_of_source` applies this to the declarations of a source.  The names of a
  header are made of word characters and stay inside their tokens; those of a registry can be any
  text, and `Source.loose_names_outside` has a registry with names that do not stay inside.

Replacements of three characters by one, which compilers make only if they are asked to, are not
taken into account.
-/

namespace CallBridge

open Text

namespace Generated

variable {c : Char} {cs rest : List Char} {config : Config} {s : Signature} {name : String}

/-! ## String literals of C -/

/-- The simple escape sequences: the letter behind the backslash, and the character meant. -/
def simpleEscapes : List (Char × Char) := [
  ('a', '\x07'), ('b', '\x08'), ('f', '\x0c'), ('n', '\n'), ('r', '\r'), ('t', '\t'), ('v', '\x0b'),
  ('\\', '\\'), ('"', '"'), ('\x27', '\x27'), ('?', '?')]

/-- Whether a character ends a line. -/
def endsLine (c : Char) : Bool :=
  c == '\n' || c == '\r'

/-- Reads a string literal behind its opening quote: the characters that are meant, and the text
behind the closing quote.  The quote has to stand on the same line. -/
def readCharacters? : List Char → Option (List Char × List Char)
  | [] => none
  | c :: cs =>
    if c = '"' then some ([], cs)
    else if c = '\\' then
      match cs with
      | [] => none
      | letter :: rest => do
        let meant ← simpleEscapes.lookup letter
        let (value, rest) ← readCharacters? rest
        some (meant :: value, rest)
    else if endsLine c then none
    else do
      let (value, rest) ← readCharacters? cs
      some (c :: value, rest)

/-- Reads a string literal. -/
def readLiteral? : List Char → Option (List Char × List Char)
  | '"' :: cs => readCharacters? cs
  | _ => none

/-- A line consists of `front`, a string literal with a value, and `back`. -/
def HoldsLiteral (line front value back : String) : Prop :=
  ∃ behind, line = front ++ behind ∧ readLiteral? behind.toList = some (value.toList, back.toList)

/-- No line ends inside a text. -/
def IsOneLine (s : String) : Prop :=
  ∀ c ∈ s.toList, endsLine c = false

instance (s : String) : Decidable (IsOneLine s) :=
  List.decidableBAll (endsLine · = false) s.toList

/-- An escaped character is read back, unless it ends the line. -/
theorem readCharacters?_escapeChars_cons (c : Char) (cs rest : List Char) :
    readCharacters? (escapeChars (c :: cs) ++ rest) =
      if endsLine c then none
      else (readCharacters? (escapeChars cs ++ rest)).map fun read => (c :: read.1, read.2) := by
  by_cases hescaped : c = '\\' ∨ c = '"'
  · have hline : endsLine c = false := by
      rcases hescaped with rfl | rfl <;> rfl
    have hmeant : simpleEscapes.lookup c = some c := by
      rcases hescaped with rfl | rfl <;> rfl
    rw [escapeChars, if_pos hescaped, List.cons_append, List.cons_append, readCharacters?,
      if_neg (by decide), if_pos rfl, hline, if_neg Bool.false_ne_true]
    cases hrest : readCharacters? (escapeChars cs ++ rest) <;> simp [hmeant]
  · obtain ⟨hbackslash, hquote⟩ := not_or.mp hescaped
    rw [escapeChars, if_neg hescaped, List.cons_append, readCharacters?.eq_def]
    cases hrest : readCharacters? (escapeChars cs ++ rest) <;> simp [hbackslash, hquote, hrest]

/-- An escaped text on one line is read back, and reading goes on behind it. -/
theorem readCharacters?_escapeChars (hline : ∀ c ∈ cs, endsLine c = false) (rest : List Char) :
    readCharacters? (escapeChars cs ++ rest) =
      (readCharacters? rest).map fun read => (cs ++ read.1, read.2) := by
  induction cs with
  | nil => simp [escapeChars]
  | cons c cs ih =>
    obtain ⟨hc, hcs⟩ := List.forall_mem_cons.mp hline
    rw [readCharacters?_escapeChars_cons, hc, if_neg Bool.false_ne_true, ih hcs, Option.map_map]
    rfl

/-- A text with a line break in it is not read to its end. -/
theorem readCharacters?_escapeChars_eq_none (hc : c ∈ cs) (hline : endsLine c = true)
    (rest : List Char) : readCharacters? (escapeChars cs ++ rest) = none := by
  induction cs with
  | nil => exact absurd hc List.not_mem_nil
  | cons d cs ih =>
    rw [readCharacters?_escapeChars_cons]
    rcases List.mem_cons.mp hc with rfl | hrest
    · rw [hline, if_pos rfl]
    · rw [ih hrest, Option.map_none, ite_self]

/-- A name stays inside a literal exactly if it is written on one line.  Behind the name, the
literal has further characters with a meaning of their own. -/
theorem holdsLiteral_iff {front more meant back : String}
    (hmore : readCharacters? (more.toList ++ '"' :: back.toList) = some (meant.toList, back.toList)) :
    HoldsLiteral (front ++ ("\"" ++ literalBody name ++ more ++ "\"" ++ back)) front (name ++ meant)
        back ↔ IsOneLine name := by
  have hread : readLiteral? ("\"" ++ literalBody name ++ more ++ "\"" ++ back).toList =
      readCharacters? (escapeChars name.toList ++ (more.toList ++ '"' :: back.toList)) := by
    simp [readLiteral?, literalBody, String.toList_append]
  constructor
  · rintro ⟨behind, hbehind, hvalue⟩ c hc
    obtain rfl := (String.append_right_inj front).mp hbehind
    rw [Bool.eq_false_iff]
    intro hline
    rw [hread, readCharacters?_escapeChars_eq_none hc hline] at hvalue
    cases hvalue
  · intro hline
    refine ⟨_, rfl, ?_⟩
    rw [hread, readCharacters?_escapeChars hline, hmore, String.toList_append]
    rfl

/-! ## The lines with literals of a name -/

/-- What stands before the symbol in the line that resolves a function. -/
def resolveFront (s : Signature) : String :=
  (if s.returnsVoid then "  RESOLVE(" else "  RESOLVE_RET(") ++ s.procType ++ ", "

/-- What stands behind the symbol in the line that resolves a function. -/
def resolveBack (config : Config) (s : Signature) : String :=
  if s.returnsVoid then ");" else ", " ++ config.failureSentinel ++ ");"

/-- What stands before the symbol in the line that resolves a function beforehand. -/
def preresolveFront (s : Signature) : String :=
  "  PRERESOLVE(" ++ s.procType ++ ", "

/-- What stands before the message in the line that traces a call. -/
def traceFront (config : Config) : String :=
  "  if (" ++ config.traceTest ++ ") " ++ config.traceFunction ++ "("

theorem holdsLiteral_literal_iff {front back : String} :
    HoldsLiteral (front ++ (literal name ++ back)) front name back ↔ IsOneLine name := by
  have hend : readCharacters? ("".toList ++ '"' :: back.toList) = some ("".toList, back.toList) := by
    rw [String.toList_empty, List.nil_append, readCharacters?.eq_def]
    rfl
  have hliteral : HoldsLiteral _ front (name ++ "") back ↔ IsOneLine name := holdsLiteral_iff hend
  rwa [String.append_empty, String.append_empty] at hliteral

theorem holdsLiteral_resolveLine_iff :
    HoldsLiteral (resolveLine config s) (resolveFront s) s.name (resolveBack config s) ↔
      IsOneLine s.name := by
  have hline : resolveLine config s =
      resolveFront s ++ (literal s.name ++ resolveBack config s) := by
    rw [resolveLine, resolveFront, resolveBack]
    cases s.returnsVoid <;> simp [String.append_assoc]
  rw [hline]
  exact holdsLiteral_literal_iff

theorem holdsLiteral_preresolveLine_iff :
    HoldsLiteral (preresolveLine s) (preresolveFront s) s.name ");" ↔ IsOneLine s.name := by
  have hline : preresolveLine s = preresolveFront s ++ (literal s.name ++ ");") :=
    String.append_assoc
  rw [hline]
  exact holdsLiteral_literal_iff

theorem holdsLiteral_traceLine_iff :
    HoldsLiteral (traceLine config s) (traceFront config) (s.name ++ "\n") ");" ↔
      IsOneLine s.name := by
  have hline : traceLine config s =
      traceFront config ++ ("\"" ++ literalBody s.name ++ "\\n" ++ "\"" ++ ");") := by
    rw [← String.toList_inj]
    simp [traceLine, traceFront]
  rw [hline]
  exact holdsLiteral_iff (by decide)

/-! ## The comment in the place of a wrapper -/

/-- A text has the mark that ends a comment. -/
def HasCommentEnd (s : String) : Prop :=
  ∃ front back, s = front ++ "*/" ++ back

/-- The comment on the omission of a function ends nowhere but at its end, before the end of the
line. -/
def IsOneComment (name : String) : Prop :=
  ∀ front back, omissionComment name = front ++ "*/" ++ back → back = "\n"

/-- Two characters stand in the first or in the second of two texts, or one in each. -/
theorem pair_append_cases {a b : Char} {xs ys front back : List Char}
    (h : xs ++ ys = front ++ a :: b :: back) :
    (∃ more, xs = front ++ a :: b :: more) ∨ (xs = front ++ [a] ∧ ys = b :: back) ∨
      ∃ more, ys = more ++ a :: b :: back := by
  rcases List.append_eq_append_iff.mp h with ⟨more, -, hys⟩ | ⟨more, hxs, hmore⟩
  · exact .inr (.inr ⟨more, hys⟩)
  · rcases more with _ | ⟨x, _ | ⟨y, more⟩⟩
    · exact .inr (.inr ⟨[], hmore.symm⟩)
    · obtain ⟨rfl, hys⟩ := List.cons.inj hmore
      exact .inr (.inl ⟨hxs, hys.symm⟩)
    · obtain ⟨rfl, hrest⟩ := List.cons.inj hmore
      obtain ⟨rfl, -⟩ := List.cons.inj hrest
      exact .inl ⟨more, hxs⟩

/-- What stands in the comment before the name. -/
def omissionFront : String :=
  "/* No wrapper for "

/-- What stands in the comment behind the name. -/
def omissionBack : String :=
  ", not in dispatch table */\n"

theorem omissionComment_eq (name : String) :
    omissionComment name = omissionFront ++ name ++ omissionBack :=
  rfl

/-- Behind the name, the comment ends nowhere but at its end. -/
theorem eq_of_omissionBack_eq {more back : List Char}
    (h : omissionBack.toList = more ++ '*' :: '/' :: back) : back = ['\n'] := by
  have hends : ∀ n < omissionBack.toList.length,
      (omissionBack.toList.drop n).take 2 = ['*', '/'] →
        (omissionBack.toList.drop n).drop 2 = ['\n'] := by
    decide
  have hdrop : omissionBack.toList.drop more.length = '*' :: '/' :: back := by
    rw [h, List.drop_left]
  have hlength : more.length < omissionBack.toList.length := by
    rw [h, List.length_append]
    simp
  have hback := hends more.length hlength
  rw [hdrop] at hback
  exact hback rfl

theorem isOneComment_iff : IsOneComment name ↔ ¬ HasCommentEnd name := by
  constructor
  · rintro hone ⟨front, back, rfl⟩
    have hback := hone (omissionFront ++ front) (back ++ omissionBack)
      (by rw [omissionComment_eq]; simp only [String.append_assoc])
    have hlength : (back ++ omissionBack).toList.length = 1 := by
      rw [hback]
      decide
    have hlong : omissionBack.toList.length = 27 := by decide
    rw [String.toList_append, List.length_append, hlong] at hlength
    omega
  · intro hfree front back h
    have hchars : omissionFront.toList ++ name.toList ++ omissionBack.toList =
        front.toList ++ '*' :: '/' :: back.toList := by
      rw [← String.toList_append, ← String.toList_append, ← omissionComment_eq, h]
      simp
    have hfront : ¬ ['*', '/'] <:+: omissionFront.toList := by decide
    have hlast : omissionFront.toList.getLast? = some ' ' := by decide
    have hhead : omissionBack.toList.head? = some ',' := by decide
    rcases pair_append_cases hchars with ⟨more, hmore⟩ | ⟨-, hcut⟩ | ⟨more, hmore⟩
    · rcases pair_append_cases hmore with ⟨early, hearly⟩ | ⟨hcut, -⟩ | ⟨early, hearly⟩
      · exact absurd ⟨front.toList, early, by simp [hearly]⟩ hfront
      · rw [hcut, List.getLast?_concat] at hlast
        contradiction
      · refine absurd ⟨String.ofList early, String.ofList more, ?_⟩ hfree
        rw [← String.toList_inj, hearly]
        simp
    · rw [hcut] at hhead
      exact absurd (Option.some.inj hhead) (by decide)
    · rw [← String.toList_inj, eq_of_omissionBack_eq hmore]
      rfl

end Generated

/-! ## Names of a header -/

namespace Header

variable {place : Place} {ls : List (List Char)} {d : Declaration} {name : String}

theorem Place.isWordChar_of_mem_name (h : place ∈ places ls)
    (hd : place.prototype.Declares place.feature d) : ∀ c ∈ d.name.toList, isWordChar c = true := by
  obtain ⟨r, -, -, hprototype⟩ := exists_reading_of_mem_places h
  intro c hc
  rw [Declaration.name, hd.name_eq, trimmed, String.toList_ofList, String.toList_ofList,
    ← hprototype] at hc
  exact r.name_word c ((isInfix_trim r.name).mem hc)

/-- A name of word characters is written on one line and ends no comment. -/
theorem isOneLine_of_isWordChar (hword : ∀ c ∈ name.toList, isWordChar c = true) :
    Generated.IsOneLine name ∧ ¬ Generated.HasCommentEnd name := by
  constructor
  · intro c hc
    rw [Bool.eq_false_iff]
    intro hline
    have hblank : isBlank c = true := by
      rcases Bool.or_eq_true_iff.mp hline with hfeed | hreturn
      · rw [beq_iff_eq.mp hfeed]
        decide
      · rw [beq_iff_eq.mp hreturn]
        decide
    have hnone := not_isWordChar_of_isBlank hblank
    rw [hword c hc] at hnone
    contradiction
  · rintro ⟨front, back, rfl⟩
    have hstar : isWordChar '*' = true := hword '*' (by simp)
    have hnone : isWordChar '*' = false := by decide +kernel
    rw [hnone] at hstar
    contradiction

end Header

/-! ## Names of a source -/

namespace Source

open Generated

theorem isWordChar_of_parse_header {provenance text api : String} {source : Source}
    (hparse : Source.parse .header provenance text api = .ok source) {d : Declaration}
    (hd : d ∈ source.pending) : ∀ c ∈ d.name.toList, isWordChar c = true := by
  have hdeclares := (parse_header_eq_ok_iff.mp hparse).2
  obtain ⟨before, after, hsplit⟩ := List.append_of_mem hd
  obtain ⟨first, place, rest, hplaces, hplace, -⟩ :=
    Registry.exists_of_forall₂_append_cons (hsplit ▸ hdeclares)
  have hmem : place ∈ Header.places (lines text.toList) :=
    hplaces ▸ List.mem_append_right first List.mem_cons_self
  exact Header.Place.isWordChar_of_mem_name hmem hplace

/-- Where the names of the declarations of a source stay inside the tokens that they are written into,
under any configuration.

* In each of the lines that look a function up or trace a call of it, its name stands in one string
  literal, with a line feed behind it where a call is traced, if and only if the name is written on one
  line.  Its quotes and backslashes do no harm.
* The comment on the omission of a function ends at its end alone if and only if no comment ends in its
  name.
* A name that a header declares is written on one line, and no comment ends in it. -/
theorem name_tokens_of_source {kind : SourceKind} {provenance text api : String} {source : Source}
    (hparse : Source.parse kind provenance text api = .ok source) {d : Declaration}
    (hd : d ∈ source.pending) (config : Config) :
    let s := d.signature
    (HoldsLiteral (resolveLine config s) (resolveFront s) d.name (resolveBack config s) ↔
      IsOneLine d.name) ∧
    (HoldsLiteral (preresolveLine s) (preresolveFront s) d.name ");" ↔ IsOneLine d.name) ∧
    (HoldsLiteral (traceLine config s) (traceFront config) (d.name ++ "\n") ");" ↔
      IsOneLine d.name) ∧
    (IsOneComment d.name ↔ ¬ HasCommentEnd d.name) ∧
    (kind = .header → IsOneLine d.name ∧ ¬ HasCommentEnd d.name) := by
  refine ⟨holdsLiteral_resolveLine_iff, holdsLiteral_preresolveLine_iff, holdsLiteral_traceLine_iff,
    isOneComment_iff, ?_⟩
  rintro rfl
  exact Header.isOneLine_of_isWordChar (isWordChar_of_parse_header hparse hd)

/-- A registry with a name of quotes and backslashes. -/
def quotedRegistry : String :=
  "<registry><commands><command><proto>void <name>gl\"F\\oo\\</name></proto></command></commands>
    <feature api='gl' name='A'><require><command name='gl\"F\\oo\\'/></require></feature></registry>"

/-- A registry with a name of two lines and one that ends a comment. -/
def looseRegistry : String :=
  "<registry><commands><command><proto>void <name>gl&#10;Foo</name></proto></command>
    <command><proto>void <name>gl*/Bar</name></proto></command></commands>
    <feature api='gl' name='A'><require><command name='gl&#10;Foo'/><command name='gl*/Bar'/></require>
    </feature></registry>"

set_option maxRecDepth 8192 in
theorem parse_quotedRegistry :
    Source.parse .registry "gl.xml" quotedRegistry "gl" =
      .ok ⟨"gl.xml", [⟨⟨"gl\"F\\oo\\", "void", .void⟩, "A"⟩]⟩ := by
  have hchars : quotedRegistry.toList = _ := String.toList_ofList
  refine parse_registry_eq_ok_iff.mpr ⟨rfl, ?_⟩
  rw [Registry.declarations, Markup.parse, hchars]
  decide +kernel

set_option maxRecDepth 8192 in
theorem parse_looseRegistry :
    Source.parse .registry "gl.xml" looseRegistry "gl" =
      .ok ⟨"gl.xml", [⟨⟨"gl\nFoo", "void", .void⟩, "A"⟩, ⟨⟨"gl*/Bar", "void", .void⟩, "A"⟩]⟩ := by
  have hchars : looseRegistry.toList = _ := String.toList_ofList
  refine parse_registry_eq_ok_iff.mpr ⟨rfl, ?_⟩
  rw [Registry.declarations, Markup.parse, hchars]
  decide +kernel

/-- A name of quotes and backslashes stays inside the literals of its symbol and of its trace. -/
theorem quoted_name_inside :
    let s : Signature := ⟨"gl\"F\\oo\\", "void", .void⟩
    (∃ source, Source.parse .registry "gl.xml" quotedRegistry "gl" = .ok source ∧
      ⟨s, "A"⟩ ∈ source.pending) ∧
    HoldsLiteral (resolveLine {} s) (resolveFront s) s.name (resolveBack {} s) ∧
    HoldsLiteral (traceLine {} s) (traceFront {}) (s.name ++ "\n") ");" := by
  intro s
  have hmem : (⟨s, "A"⟩ : Declaration) ∈ [(⟨s, "A"⟩ : Declaration)] := List.mem_cons_self
  obtain ⟨hresolved, -, htraced, -⟩ := name_tokens_of_source parse_quotedRegistry hmem {}
  have hline : IsOneLine s.name := by decide
  exact ⟨⟨_, parse_quotedRegistry, hmem⟩, hresolved.mpr hline, htraced.mpr hline⟩

/-- A name of two lines does not stay inside the literals of its symbol and of its trace, and one that
ends a comment does not stay inside the comment on its omission. -/
theorem loose_names_outside :
    let s : Signature := ⟨"gl\nFoo", "void", .void⟩
    let t : Signature := ⟨"gl*/Bar", "void", .void⟩
    (∃ source, Source.parse .registry "gl.xml" looseRegistry "gl" = .ok source ∧
      ⟨s, "A"⟩ ∈ source.pending ∧ ⟨t, "A"⟩ ∈ source.pending) ∧
    ¬ HoldsLiteral (resolveLine {} s) (resolveFront s) s.name (resolveBack {} s) ∧
    ¬ HoldsLiteral (preresolveLine s) (preresolveFront s) s.name ");" ∧
    ¬ HoldsLiteral (traceLine {} s) (traceFront {}) (s.name ++ "\n") ");" ∧
    ¬ IsOneComment t.name := by
  intro s t
  have hlines : ¬ IsOneLine s.name := by decide
  have hend : HasCommentEnd t.name := ⟨"gl", "Bar", by decide⟩
  refine ⟨⟨_, parse_looseRegistry, List.mem_cons_self, List.mem_cons_of_mem _ List.mem_cons_self⟩,
    mt holdsLiteral_resolveLine_iff.mp hlines, mt holdsLiteral_preresolveLine_iff.mp hlines,
    mt holdsLiteral_traceLine_iff.mp hlines, ?_⟩
  exact fun hone => isOneComment_iff.mp hone hend

end Source

end CallBridge
