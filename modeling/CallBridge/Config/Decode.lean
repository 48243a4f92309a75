import CallBridge.Config.Basic
import CallBridge.Json.Scan

/-!
# Reading a configuration from JSON

A configuration is written as an object whose keys are field keys, or as an array
of the fields in order.  Fields that are left out have their defaults.  A key that
is no field or comes twice, and a value of the wrong kind, are problems like those
of the text itself: the text is read from left to right, and the first problem
counts.

`Config.ofJson` reads a whole text.  The readers below it take a text and give a
value and what follows it.
-/

namespace CallBridge.Json

/-- Reads a string. -/
def readString (cs : List Char) : Except Problem (String × List Char) :=
  match skipSpace cs with
  | '"' :: cs =>
    match scanString cs with
    | .ok (s, rest) => .ok (String.ofList s, rest)
    | .error problem => .error problem
  | cs => .error (misfit cs)

theorem length_readString {cs rest : List Char} {s : String}
    (h : readString cs = .ok (s, rest)) : rest.length < cs.length := by
  have hs := length_skipSpace_le cs
  unfold readString at h
  split at h
  · rename_i tail heq
    split at h
    · rename_i t more hscan
      obtain ⟨-, rfl⟩ := Prod.mk.inj (Except.ok.inj h)
      have := length_scanString hscan
      simp only [heq, List.length_cons] at hs
      omega
    · simp at h
  · simp at h

/-- Moves to the next element of an array.  `first` says whether no element has
been read yet.  Gives the text of the element, or what follows the bracket at the
end. -/
def nextElement (first : Bool) (cs : List Char) :
    Except Problem (List Char ⊕ List Char) :=
  match skipSpace cs with
  | [] => .error .endedEarly
  | c :: cs =>
    if c = ']' then .ok (.inr cs)
    else if first then .ok (.inl (c :: cs))
    else if c = ',' then
      match skipSpace cs with
      | [] => .error .endedEarly
      | d :: cs => if d = ']' then .error .malformed else .ok (.inl (d :: cs))
    else .error .malformed

theorem length_nextElement {first : Bool} {cs rest : List Char}
    (h : nextElement first cs = .ok (.inl rest)) : rest.length ≤ cs.length := by
  have hs := length_skipSpace_le cs
  unfold nextElement at h
  split at h
  · simp at h
  · rename_i c tail heq
    rw [heq] at hs
    split at h
    · simp at h
    · split at h
      · obtain rfl := Sum.inl.inj (Except.ok.inj h)
        exact hs
      · split at h
        · split at h
          · simp at h
          · rename_i d tail2 heq2
            have hs2 := length_skipSpace_le tail
            rw [heq2] at hs2
            split at h
            · simp at h
            · obtain rfl := Sum.inl.inj (Except.ok.inj h)
              simp only [List.length_cons] at hs hs2 ⊢
              omega
        · simp at h

/-- Reads the strings of an array from an element on. -/
def readStringsFrom (first : Bool) (cs : List Char) :
    Except Problem (List String × List Char) :=
  match h : nextElement first cs with
  | .error problem => .error problem
  | .ok (.inr rest) => .ok ([], rest)
  | .ok (.inl element) =>
    have := length_nextElement h
    match hs : readString element with
    | .error problem => .error problem
    | .ok (s, rest) =>
      have := length_readString hs
      match readStringsFrom false rest with
      | .error problem => .error problem
      | .ok (ss, rest) => .ok (s :: ss, rest)
termination_by cs.length

/-- Reads an array of strings. -/
def readStrings (cs : List Char) : Except Problem (List String × List Char) :=
  match skipSpace cs with
  | '[' :: cs => readStringsFrom true cs
  | cs => .error (misfit cs)

/-- Reads the colon after a key. -/
def readColon (cs : List Char) : Except Problem (List Char) :=
  match skipSpace cs with
  | [] => .error .endedEarly
  | ':' :: cs => .ok cs
  | _ => .error .malformed

/-- Moves to the next key of an object.  `first` says whether no member has been
read yet.  Gives the text after the quote that begins the key, or what follows the
brace at the end. -/
def nextKey (first : Bool) (cs : List Char) : Except Problem (List Char ⊕ List Char) :=
  match skipSpace cs with
  | [] => .error .endedEarly
  | c :: cs =>
    if c = '\x7d' then .ok (.inr cs)
    else if first then
      if c = '"' then .ok (.inl cs) else .error .malformed
    else if c = ',' then
      match skipSpace cs with
      | [] => .error .endedEarly
      | d :: cs => if d = '"' then .ok (.inl cs) else .error .malformed
    else .error .malformed

end CallBridge.Json

namespace CallBridge.Config

open Json

/-- Reads the value of a field into a configuration. -/
def readField (c : Config) (field : Field) (cs : List Char) :
    Except Problem (Config × List Char) :=
  match field with
  | .text f =>
    match readString cs with
    | .ok (s, rest) => .ok (c.setText s f, rest)
    | .error problem => .error problem
  | .list f =>
    match readStrings cs with
    | .ok (ss, rest) => .ok (c.setList ss f, rest)
    | .error problem => .error problem

theorem length_erase_of_find? {p : Field → Bool} {free : List Field} {field : Field}
    (h : free.find? p = some field) : (free.erase field).length < free.length := by
  have hm := List.mem_of_find?_eq_some h
  have hl := List.length_erase_of_mem hm
  have := List.length_pos_of_mem hm
  omega

/-- Reads the members of an object from a member on.  `free` are the fields that
have not been read. -/
def readMembers (c : Config) (first : Bool) (free : List Field) (cs : List Char) :
    Except Problem (Config × List Char) :=
  match nextKey first cs with
  | .error problem => .error problem
  | .ok (.inr rest) => .ok (c, rest)
  | .ok (.inl cs) =>
    match scanString cs with
    | .error problem => .error problem
    | .ok (key, rest) =>
      match h : free.find? (·.key == String.ofList key) with
      | none => .error .misfit
      | some field =>
        match readColon rest with
        | .error problem => .error problem
        | .ok rest =>
          match c.readField field rest with
          | .error problem => .error problem
          | .ok (c, rest) =>
            have := length_erase_of_find? h
            readMembers c false (free.erase field) rest
termination_by free.length

/-- Reads the elements of an array into fields, in order. -/
def readElements (c : Config) (first : Bool) : List Field → List Char →
    Except Problem (Config × List Char)
  | [], cs =>
    match skipSpace cs with
    | [] => .error .endedEarly
    | ']' :: rest => .ok (c, rest)
    | _ => .error .malformed
  | field :: fields, cs =>
    match nextElement first cs with
    | .error problem => .error problem
    | .ok (.inr rest) => .ok (c, rest)
    | .ok (.inl element) =>
      match c.readField field element with
      | .error problem => .error problem
      | .ok (c, rest) => readElements c false fields rest

/-- Reads a configuration and gives what follows it. -/
def readConfig (cs : List Char) : Except Problem (Config × List Char) :=
  match skipSpace cs with
  | '\x7b' :: cs => readMembers {} true Field.all cs
  | '[' :: cs => readElements {} true Field.all cs
  | cs => .error (misfit cs)

/-- Reads a configuration text.  Nothing but white space may follow the
configuration. -/
def ofJson (text : String) : Except Problem Config :=
  match readConfig text.toList with
  | .error problem => .error problem
  | .ok (c, rest) => if (skipSpace rest).isEmpty then .ok c else .error .malformed

end CallBridge.Config
