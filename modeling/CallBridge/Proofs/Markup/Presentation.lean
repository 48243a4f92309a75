import CallBridge.Markup.Document
import CallBridge.Proofs.Markup.Tree

/-!
# Ways to write a tree

A tree can be written as a document in many ways.  `Tree.IsPlain` says which trees are
considered, and `WritesDocument tree cs` that the characters `cs` are one way to write the tree:

* a character of text is written as itself, in a character data section together with the
  characters next to it, or as a reference by name or by number (`Writes`, `Refers`);
* a character of an attribute is written as itself or as a reference (`WritesValue`), and
  attributes stand apart by any blanks (`WritesAttributes`);
* an element without content is written in one tag or in two;
* comments and instructions stand anywhere between the pieces of content and around the root,
  and blanks around the root;
* a declaration may stand at the top, with a version, an encoding and more
  (`WritesDeclaration`).

`Tree.IsPlain.exists_writesDocument` says that every plain element can be written.
-/

namespace CallBridge.Markup

/-! ## Plain trees -/

/-- Printable characters of ASCII, with the space. -/
structure IsPrintable (c : Char) : Prop where
  low : 0x20 ≤ c.toNat
  high : c.toNat ≤ 0x7e

/-- Letters and digits of ASCII, a letter first, and no more than a reader takes. -/
structure IsPlainName (name : String) : Prop where
  ne_nil : name.toList ≠ []
  isAlpha_head : ∀ c ∈ name.toList.head?, c.isAlpha = true
  isAlphanum : ∀ c ∈ name.toList, c.isAlphanum = true
  length_le : name.toList.length ≤ maxNameWidth + 1
  ne_xmlns : name ≠ declaringScope

/-- Attributes with plain names, each of which stands once, and printable values. -/
structure ArePlain (attributes : List (String × String)) : Prop where
  names : ∀ a ∈ attributes, IsPlainName a.1
  values : ∀ a ∈ attributes, ∀ c ∈ a.2.toList, IsPrintable c
  nodup : (attributes.map Prod.fst).Nodup
  length_le : attributes.length ≤ maxAttributes

instance (c : Char) : Decidable (IsPrintable c) :=
  decidable_of_iff (0x20 ≤ c.toNat ∧ c.toNat ≤ 0x7e)
    ⟨fun ⟨low, high⟩ => ⟨low, high⟩, fun h => ⟨h.low, h.high⟩⟩

instance (name : String) : Decidable (IsPlainName name) :=
  decidable_of_iff
    (name.toList ≠ [] ∧ name.toList.head?.all Char.isAlpha = true ∧
      name.toList.all Char.isAlphanum = true ∧ name.toList.length ≤ maxNameWidth + 1 ∧
      name ≠ declaringScope)
    ⟨fun ⟨ne_nil, isAlpha_head, isAlphanum, length_le, ne_xmlns⟩ =>
      ⟨ne_nil, (Option.all_eq_true _ _).mp isAlpha_head, List.all_eq_true.mp isAlphanum, length_le,
        ne_xmlns⟩,
      fun h => ⟨h.ne_nil, (Option.all_eq_true _ _).mpr h.isAlpha_head,
        List.all_eq_true.mpr h.isAlphanum, h.length_le, h.ne_xmlns⟩⟩

instance (attributes : List (String × String)) : Decidable (ArePlain attributes) :=
  decidable_of_iff
    ((∀ a ∈ attributes, IsPlainName a.1) ∧
      (∀ a ∈ attributes, a.2.toList.all (fun c => decide (IsPrintable c)) = true) ∧
      (attributes.map Prod.fst).Nodup ∧ attributes.length ≤ maxAttributes)
    ⟨fun ⟨names, values, nodup, length_le⟩ =>
      ⟨names, fun a ha => by simpa using values a ha, nodup, length_le⟩,
      fun h => ⟨h.names, fun a ha => by simpa using h.values a ha, h.nodup, h.length_le⟩⟩

/-- A tree of plain names and printable text. -/
inductive Tree.IsPlain : Tree → Prop where
  | char {c : Char} (hc : IsPrintable c) : IsPlain (.char c)
  | element {name : String} {attributes : List (String × String)} {content : List Tree}
      (hname : IsPlainName name) (hattributes : ArePlain attributes)
      (hcontent : ∀ t ∈ content, IsPlain t) : IsPlain (.element name attributes content)

/-! ## References -/

def decimalDigits : List Char :=
  ['0', '1', '2', '3', '4', '5', '6', '7', '8', '9']

def hexadecimalDigits : List Char :=
  decimalDigits ++ ['a', 'b', 'c', 'd', 'e', 'f', 'A', 'B', 'C', 'D', 'E', 'F']

/-- The value of a digit of a base of at most sixteen. -/
def digitValue (d : Char) : Nat :=
  ['0', '1', '2', '3', '4', '5', '6', '7', '8', '9', 'a', 'b', 'c', 'd', 'e', 'f'].idxOf d.toLower

/-- The number that digits write. -/
def numeralValue (base : Nat) (digits : List Char) : Nat :=
  digits.foldl (fun n d => n * base + digitValue d) 0

/-- What may stand between an ampersand and a semicolon for a character. -/
inductive Refers : Char → List Char → Prop where
  | lessThan : Refers '<' ['l', 't']
  | greaterThan : Refers '>' ['g', 't']
  | ampersand : Refers '&' ['a', 'm', 'p']
  | apostrophe : Refers '\'' ['a', 'p', 'o', 's']
  | quotation : Refers '"' ['q', 'u', 'o', 't']
  | decimal {c : Char} {digits : List Char} (hne : digits ≠ [])
      (hdigits : ∀ d ∈ digits, d ∈ decimalDigits) (hvalue : numeralValue 10 digits = c.toNat) :
      Refers c ('#' :: digits)
  | hexadecimal {c : Char} {digits : List Char} (hne : digits ≠ [])
      (hdigits : ∀ d ∈ digits, d ∈ hexadecimalDigits)
      (hvalue : numeralValue 16 digits = c.toNat) : Refers c ('#' :: 'x' :: digits)

/-! ## Tags -/

/-- White space or nothing. -/
def IsGap (cs : List Char) : Prop :=
  ∀ c ∈ cs, isSpace c = true

/-- The value of an attribute between quotes: characters as they are, apart from those that
mean something else there, and references. -/
inductive WritesValue (q : Quote) : List Char → List Char → Prop where
  | nil : WritesValue q [] []
  | raw {c : Char} {value cs : List Char} (hc : c ∉ ['<', '&', q.char])
      (rest : WritesValue q value cs) : WritesValue q (c :: value) (c :: cs)
  | reference {c : Char} {ref value cs : List Char} (href : Refers c ref)
      (rest : WritesValue q value cs) :
      WritesValue q (c :: value) ('&' :: (ref ++ ';' :: cs))

/-- What stands in a tag behind the name of its element. -/
inductive WritesAttributes : List (String × String) → List Char → Prop where
  | nil {gap : List Char} (hgap : IsGap gap) : WritesAttributes [] gap
  | cons {name value : String} {attributes : List (String × String)}
      {gap before after written cs : List Char} {q : Quote} (hne : gap ≠ []) (hgap : IsGap gap)
      (hbefore : IsGap before) (hafter : IsGap after) (hvalue : WritesValue q value.toList written)
      (rest : WritesAttributes attributes cs) :
      WritesAttributes ((name, value) :: attributes)
        (gap ++ (name.toList ++ (before ++ '=' :: (after ++ q.char :: (written ++ q.char :: cs)))))

/-! ## Comments and instructions -/

/-- The version and the encoding of a document. -/
structure Form where
  revised : Bool := false
  encoding : Encoding := .utf8

/-- A character that the encoding has. -/
def Form.Encodes (f : Form) (c : Char) : Prop :=
  f.encoding = .utf8 ∨ c.toNat < 0x80

/-- What may stand in a comment: no two dashes, neither inside nor together with the end. -/
structure IsComment (f : Form) (body : List Char) : Prop where
  isChar : ∀ c ∈ body, isChar f.revised c = true
  encoded : ∀ c ∈ body, f.Encodes c
  dashes_free : ¬ ['-', '-'] <:+: body ++ ['-']

/-- A word of the characters of names, no wider than a reader takes. -/
structure IsTargetName (f : Form) (target : List Char) : Prop where
  ne_nil : target ≠ []
  isNameStart : ∀ c ∈ target.head?, isNameStart c = true
  isNameChar : ∀ c ∈ target, isNameChar c = true
  encoded : ∀ c ∈ target, f.Encodes c
  width_le : Text.width target.dropLast ≤ maxNameWidth

/-- The name of an instruction.  The name `xml` is reserved. -/
structure IsTarget (f : Form) (target : List Char) : Prop extends IsTargetName f target where
  not_reserved : target.map Char.toLower ≠ ['x', 'm', 'l']

/-- The data of an instruction. -/
structure IsData (f : Form) (data : List Char) : Prop where
  isChar : ∀ c ∈ data, isChar f.revised c = true
  encoded : ∀ c ∈ data, f.Encodes c
  close_free : ¬ ['?', '>'] <:+: data

/-- An instruction, with data behind a blank or without. -/
inductive IsInstruction (f : Form) : List Char → Prop where
  | bare {target : List Char} (htarget : IsTarget f target) :
      IsInstruction f ('<' :: '?' :: (target ++ ['?', '>']))
  | data {target data : List Char} {blank : Char} (htarget : IsTarget f target)
      (hblank : isSpace blank = true) (hdata : IsData f data) :
      IsInstruction f ('<' :: '?' :: (target ++ blank :: (data ++ ['?', '>'])))

/-! ## Content -/

/-- Trees written one after the other.  The flag says whether an element is open around them.
The number says how many closing brackets stand right before, each written as itself: behind
two of them a closing angle may not be written as itself. -/
inductive Writes (f : Form) : Bool → Nat → List Tree → List Char → Prop where
  | nil {inside : Bool} {brackets : Nat} : Writes f inside brackets [] []
  | blank {brackets : Nat} {trees : List Tree} {cs : List Char} {c : Char}
      (hc : isSpace c = true) (rest : Writes f false 0 trees cs) :
      Writes f false brackets trees (c :: cs)
  | raw {brackets : Nat} {trees : List Tree} {cs : List Char} {c : Char} (hc : c ∉ ['<', '&'])
      (hclose : c = '>' → brackets < 2)
      (rest : Writes f true (if c = ']' then brackets + 1 else 0) trees cs) :
      Writes f true brackets (.char c :: trees) (c :: cs)
  | reference {brackets : Nat} {trees : List Tree} {ref cs : List Char} {c : Char}
      (href : Refers c ref) (rest : Writes f true 0 trees cs) :
      Writes f true brackets (.char c :: trees) ('&' :: (ref ++ ';' :: cs))
  | cdata {brackets : Nat} {trees : List Tree} {text cs : List Char}
      (hfree : ¬ [']', ']', '>'] <:+: text) (rest : Writes f true 0 trees cs) :
      Writes f true brackets (text.map .char ++ trees)
        (Token.cdataOpen.text ++ (text ++ (Token.cdataClose.text ++ cs)))
  | comment {inside : Bool} {brackets : Nat} {trees : List Tree} {body cs : List Char}
      (hbody : IsComment f body) (rest : Writes f inside 0 trees cs) :
      Writes f inside brackets trees
        (Token.commentOpen.text ++ (body ++ (Token.commentClose.text ++ cs)))
  | instruction {inside : Bool} {brackets : Nat} {trees : List Tree} {text cs : List Char}
      (htext : IsInstruction f text) (rest : Writes f inside 0 trees cs) :
      Writes f inside brackets trees (text ++ cs)
  | element {inside : Bool} {brackets : Nat} {trees : List Tree} {name : String}
      {attributes : List (String × String)} {content : List Tree}
      {tag inner gap cs : List Char} (hattributes : WritesAttributes attributes tag)
      (hcontent : Writes f true 0 content inner) (hgap : IsGap gap)
      (rest : Writes f inside 0 trees cs) :
      Writes f inside brackets (.element name attributes content :: trees)
        ('<' :: (name.toList ++ (tag ++ '>' :: (inner ++ '<' :: '/' ::
          (name.toList ++ (gap ++ '>' :: cs))))))
  | empty {inside : Bool} {brackets : Nat} {trees : List Tree} {name : String}
      {attributes : List (String × String)} {tag cs : List Char}
      (hattributes : WritesAttributes attributes tag) (rest : Writes f inside 0 trees cs) :
      Writes f inside brackets (.element name attributes [] :: trees)
        ('<' :: (name.toList ++ (tag ++ '/' :: '>' :: cs)))

/-! ## Documents -/

/-- An item of the declaration. -/
inductive WritesItem (word value : List Char) : List Char → Prop where
  | intro {gap before after : List Char} {q : Quote} (hne : gap ≠ []) (hgap : IsGap gap)
      (hbefore : IsGap before) (hafter : IsGap after) :
      WritesItem word value
        (gap ++ (word ++ (before ++ '=' :: (after ++ q.char :: (value ++ [q.char])))))

/-- The name of an encoding: letters, digits, dots, underscores and dashes. -/
def IsLabel (label : List Char) : Prop :=
  ∀ c ∈ label, c.isAlphanum = true ∨ c ∈ ['.', '_', '-']

/-- The declaration at the top of a document. -/
inductive WritesDeclaration (f : Form) : List Char → Prop where
  | intro {version encoding standalone gap : List Char}
      (hversion : WritesItem "version".toList (if f.revised then "1.1" else "1.0").toList version)
      (hencoding : encoding = [] ∧ f.encoding = .utf8 ∨
        ∃ label, IsLabel label ∧ Encoding.ofName? (String.ofList label) = some f.encoding ∧
          WritesItem "encoding".toList label encoding)
      (hstandalone : standalone = [] ∨
        ∃ answer ∈ ["yes".toList, "no".toList], WritesItem "standalone".toList answer standalone)
      (hgap : IsGap gap) :
      WritesDeclaration f
        ('<' :: '?' :: 'x' :: 'm' :: 'l' :: (version ++ (encoding ++ (standalone ++ (gap ++
          ['?', '>'])))))

/-- A document with one root element. -/
inductive WritesDocument (tree : Tree) : List Char → Prop where
  | bare {cs : List Char} (hroot : Writes {} false 0 [tree] cs) : WritesDocument tree cs
  | declared {f : Form} {declaration cs : List Char}
      (hdeclaration : WritesDeclaration f declaration)
      (hroot : Writes f false 0 [tree] cs) : WritesDocument tree (declaration ++ cs)

/-! ## Every plain element can be written -/

theorem exists_writesValue (q : Quote) (value : List Char) : ∃ cs, WritesValue q value cs := by
  induction value with
  | nil => exact ⟨[], .nil⟩
  | cons c value ih =>
    obtain ⟨cs, hcs⟩ := ih
    by_cases hc : c ∈ ['<', '&', q.char]
    · have href : ∃ ref, Refers c ref := by
        simp only [List.mem_cons, List.not_mem_nil, or_false] at hc
        rcases hc with rfl | rfl | rfl
        · exact ⟨_, .lessThan⟩
        · exact ⟨_, .ampersand⟩
        · cases q
          · exact ⟨_, .apostrophe⟩
          · exact ⟨_, .quotation⟩
      obtain ⟨ref, href⟩ := href
      exact ⟨_, .reference href hcs⟩
    · exact ⟨_, .raw hc hcs⟩

theorem exists_writesAttributes (attributes : List (String × String)) :
    ∃ cs, WritesAttributes attributes cs := by
  have hspace : IsGap [' '] := by
    intro c hc
    rw [List.mem_singleton.mp hc]
    rfl
  have hnone : IsGap [] := List.forall_mem_nil _
  induction attributes with
  | nil => exact ⟨[], .nil hnone⟩
  | cons a attributes ih =>
    obtain ⟨cs, hcs⟩ := ih
    obtain ⟨written, hwritten⟩ := exists_writesValue .double a.2.toList
    exact ⟨_, .cons (List.cons_ne_nil _ _) hspace hnone hnone hwritten hcs⟩

/-- Content can be written if each of its trees can be written before any other. -/
theorem exists_writes_of_forall {f : Form} {content : List Tree}
    (h : ∀ t ∈ content, ∀ {trees : List Tree} {cs : List Char}, Writes f true 0 trees cs →
      ∃ ds, Writes f true 0 (t :: trees) ds) : ∃ cs, Writes f true 0 content cs := by
  induction content with
  | nil => exact ⟨[], .nil⟩
  | cons t content ih =>
    obtain ⟨cs, hcs⟩ := ih fun u hu => h u (List.mem_cons_of_mem t hu)
    exact h t List.mem_cons_self hcs

theorem exists_writes_cons {f : Form} {t : Tree} (ht : t.IsPlain) {inside : Bool}
    (hinside : inside = true ∨ ∃ name attributes content, t = .element name attributes content)
    {trees : List Tree} {cs : List Char} (rest : Writes f inside 0 trees cs) :
    ∃ ds, Writes f inside 0 (t :: trees) ds := by
  induction ht generalizing inside trees cs with
  | @char c _ =>
    rcases hinside with rfl | ⟨name, attributes, content, heq⟩
    · have hfree : ¬ [']', ']', '>'] <:+: [c] := fun h => absurd h.length_le (by simp)
      exact ⟨_, .cdata hfree rest⟩
    · cases heq
  | @element name attributes content _ _ _ ih =>
    obtain ⟨tag, htag⟩ := exists_writesAttributes attributes
    obtain ⟨inner, hinner⟩ : ∃ inner, Writes f true 0 content inner :=
      exists_writes_of_forall fun t ht => ih t ht (.inl rfl)
    exact ⟨_, .element htag hinner (List.forall_mem_nil _) rest⟩

/-- Every plain element can be written. -/
theorem Tree.IsPlain.exists_writesDocument {name : String} {attributes : List (String × String)}
    {content : List Tree} (h : Tree.IsPlain (.element name attributes content)) :
    ∃ cs, WritesDocument (.element name attributes content) cs := by
  obtain ⟨cs, hcs⟩ := exists_writes_cons h (.inr ⟨_, _, _, rfl⟩) (Writes.nil (f := {}))
  exact ⟨cs, .bare hcs⟩

end CallBridge.Markup
