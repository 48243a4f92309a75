/-!
# Files

A directory tree as a run of the program sees it: files with their bytes, and
directories.  A path is read piece by piece from the directory in which the program
runs.  Every piece but the last has to lead to a directory; empty pieces and single
dots stay where they are, and double dots go one up.  There is always a directory
one up, and a path that begins with a slash starts at the top of all directories.

`Tree.read` gives the text of a file and `Tree.write` replaces or creates one, or a
`FileFault` says why not.  What `Tree.put` has put at a place stands there
(`at?_put`).
-/

namespace CallBridge.Files

/-- Why a file cannot be read or written. -/
inductive FileFault where
  | missing
  | isDirectory
  | notDirectory
  /-- A piece of the path, or the path as a whole, has too many bytes. -/
  | nameTooLong
  /-- The path holds a zero byte. -/
  | zeroInName
  /-- The bytes are not UTF-8. -/
  | notText
  | other (message : String)
  deriving DecidableEq, Repr

/-- What a fault says. -/
def FileFault.message : FileFault → String
  | missing => "No such file or directory (os error 2)"
  | isDirectory => "Is a directory (os error 21)"
  | notDirectory => "Not a directory (os error 20)"
  | nameTooLong => "File name too long (os error 36)"
  | zeroInName => "file name contained an unexpected NUL byte"
  | notText => "stream did not contain valid UTF-8"
  | other message => message

/-- What stands under a name. -/
inductive Entry where
  | file (bytes : ByteArray)
  | directory

/-- Files and directories by the pieces of their paths.  The directories on the way
to an entry need no entry of their own. -/
structure Tree where
  entries : List (List String × Entry) := []

/-- The pieces of a path between slashes. -/
def piecesOf (path : String) : List String :=
  splitPieces path.toList
where
  /-- Pieces between slashes, on characters. -/
  splitPieces (cs : List Char) : List String :=
    (cs.foldr
      (fun c pieces =>
        match pieces with
        | [] => [[c]]
        | piece :: rest => if c = '/' then [] :: piece :: rest else (c :: piece) :: rest)
      [[]]).map String.ofList

/-- Whether a piece stays in the directory. -/
def staysPut (piece : String) : Bool :=
  piece == "" || piece == "."

/-- The last piece of a path that is a name. -/
def lastName (path : String) : String :=
  (((piecesOf path).filter fun piece => !staysPut piece).getLast?).getD path

/-- How many bytes a piece of a path may have. -/
def maxPieceWidth : Nat :=
  255

/-- How many bytes a path may have. -/
def maxPathWidth : Nat :=
  4095

/-- What is wrong with a path before it is followed. -/
def pathFault? (path : String) : Option FileFault :=
  if path.toList.contains '\x00' then some .zeroInName
  else if path.isEmpty then some .missing
  else if maxPathWidth < path.utf8ByteSize then some .nameTooLong
  else none

/-- The top of all directories. -/
def top : List String :=
  ["/"]

/-- Where a path starts: at the top, or in the directory of the run. -/
def startOf (path : String) : List String :=
  if path.toList.head? = some '/' then top else []

/-- Whether a place is the directory of the run or one that holds it. -/
def isAround (place : List String) : Bool :=
  place == top || place.all (· == "..")

/-- The directory that holds a place.  The top is held by itself. -/
def parent (place : List String) : List String :=
  if place == top then top
  else if place.all (· == "..") then place ++ [".."]
  else place.dropLast

namespace Tree

/-- What stands at a place given by names. -/
def at? (t : Tree) (place : List String) : Option Entry :=
  match t.entries.find? (·.1 == place) with
  | some found => some found.2
  | none =>
    if isAround place || t.entries.any (fun entry => place.isPrefixOf entry.1) then
      some .directory
    else none

/-- Walks from a directory along pieces.  Gives the place and what stands there. -/
def walk (t : Tree) (place : List String) : List String → Except FileFault (List String × Entry)
  | [] => .ok (place, .directory)
  | piece :: rest =>
    if staysPut piece then walk t place rest
    else if piece = ".." then walk t (parent place) rest
    else if maxPieceWidth < piece.utf8ByteSize then .error .nameTooLong
    else
      match t.at? (place ++ [piece]) with
      | none => .error .missing
      | some .directory => walk t (place ++ [piece]) rest
      | some (.file bytes) =>
        if rest.isEmpty then .ok (place ++ [piece], .file bytes) else .error .notDirectory

/-- Walks along a path. -/
def find (t : Tree) (path : String) : Except FileFault (List String × Entry) :=
  match pathFault? path with
  | some fault => .error fault
  | none => t.walk (startOf path) (piecesOf path)

/-- The text of bytes. -/
def decode (bytes : ByteArray) : Except FileFault String :=
  match String.fromUTF8? bytes with
  | some text => .ok text
  | none => .error .notText

/-- The bytes of a text are read back as that text. -/
theorem decode_toUTF8 (text : String) : decode text.toUTF8 = .ok text := by
  have back : String.fromUTF8? text.toUTF8 = some text := by
    simp only [String.fromUTF8?, String.toUTF8_eq_toByteArray, dif_pos text.isValidUTF8]
    rfl
  rw [decode, back]

/-- The text of the file at a path. -/
def read (t : Tree) (path : String) : Except FileFault String :=
  match t.find path with
  | .error fault => .error fault
  | .ok (_, .directory) => .error .isDirectory
  | .ok (_, .file bytes) => decode bytes

/-- Puts a file at a place, instead of what stands there. -/
def put (t : Tree) (place : List String) (text : String) : Tree :=
  ⟨t.entries.filter (·.1 != place) ++ [(place, .file text.toUTF8)]⟩

theorem at?_put (t : Tree) (place : List String) (text : String) :
    (t.put place text).at? place = some (.file text.toUTF8) := by
  have none : (t.entries.filter (·.1 != place)).find? (·.1 == place) = none := by
    simp
  simp [at?, put, List.find?_append, none]

/-- Puts a file with a given name into a directory.  A slash behind the name asks for
a directory, which a file is not. -/
def writeIn (t : Tree) (place : List String) (name : String) (slash : Bool) (text : String) :
    Except FileFault Tree :=
  if staysPut name || name == ".." || slash then .error .isDirectory
  else if maxPieceWidth < name.utf8ByteSize then .error .nameTooLong
  else
    match t.at? (place ++ [name]) with
    | some .directory => .error .isDirectory
    | _ => .ok (t.put (place ++ [name]) text)

/-- Writes a text to the file at a path, which is created if it is not there. -/
def write (t : Tree) (path text : String) : Except FileFault Tree :=
  match pathFault? path with
  | some fault => .error fault
  | none =>
    let pieces := (piecesOf path).filter (· != "")
    match t.walk (startOf path) pieces.dropLast with
    | .error fault => .error fault
    | .ok (_, .file _) => .error .notDirectory
    | .ok (place, .directory) =>
      t.writeIn place (pieces.getLast?.getD "") (path.toList.getLast? == some '/') text

/-- The text of the file at a place, if there is one and it is text. -/
def textAt? (t : Tree) (place : List String) : Option String :=
  match t.at? place with
  | some (.file bytes) => String.fromUTF8? bytes
  | _ => none

end Tree

end CallBridge.Files
