import CallBridge.Markup.Document
import CallBridge.Signature

/-!
# API registries

A registry is a document with the root `registry`.  Its `commands` blocks define
commands, each with a prototype and parameters; of several definitions of one name
the last counts.  Its features and extensions require commands by name.  A command
is declared by the first feature or extension that requires it, features before
extensions, both in document order.

Only what applies to one API is read: features of that API, extensions that
support it, and requirements that are limited neither to another API nor to another
profile than `compatibility`.

* `signatures` collects the definitions, and `lookup?` finds the last of a name;
* `mentions` lists what is required and by which feature;
* `declareAll` turns first mentions into declarations;
* `declarations` reads a whole registry text.
-/

namespace CallBridge.Registry

open Markup

/-- Why a registry cannot be read.  Lines count from one. -/
inductive Fault where
  | wrongRoot (name : String) (line : Nat)
  | noPrototype (line : Nat)
  | noName (element : String) (line : Nat)
  | unnamedFeature (element : String) (line : Nat)
  | undefinedCommand (feature command : String) (line : Nat)
  deriving DecidableEq, Repr

/-- The report of a fault. -/
def Fault.report : Fault → Report
  | .wrongRoot name line =>
    { code := "REG100"
      message := "ルート要素が <registry> ではありません: <" ++ name ++ ">"
      line := some line }
  | .noPrototype line =>
    { code := "REG101"
      message := "<command> に <proto> がありません"
      line := some line }
  | .noName element line =>
    { code := "REG102"
      message := "<" ++ element ++ "> に <name> がありません"
      line := some line }
  | .unnamedFeature element line =>
    { code := "REG110"
      message := "<" ++ element ++ "> に name 属性がありません"
      line := some line }
  | .undefinedCommand feature command line =>
    { code := "REG111"
      message := feature ++ " が未定義のコマンド " ++ command ++ " を要求しています"
      line := some line }

/-- The profile whose requirements are read. -/
def profile : String :=
  "compatibility"

/-! ## Definitions of commands -/

/-- The text before the first `name` child, and the text of that child. -/
def typedName? : List Node → Option (String × String)
  | [] => none
  | .text content :: rest =>
    (typedName? rest).map fun found => (content ++ found.1, found.2)
  | .element name _ _ children :: rest =>
    if name = "name" then some ("", Node.textOfAll children)
    else (typedName? rest).map fun found => (Node.textOfAll children ++ found.1, found.2)

/-- The type and the name that an element gives. -/
def typedName (e : Element) : Except Fault (String × String) :=
  match typedName? e.children with
  | some found => .ok found
  | none => .error (.noName e.name e.line)

/-- The parameters that elements give. -/
def parameters : List Element → Except Fault (List Parameter)
  | [] => .ok []
  | e :: rest => do
    let (type, name) ← typedName e
    let ps ← parameters rest
    .ok (Parameter.normal type name :: ps)

/-- The signature that a command defines. -/
def signature (command : Element) : Except Fault Signature :=
  match command.child? "proto" with
  | none => .error (.noPrototype command.line)
  | some prototype => do
    let (returnType, name) ← typedName prototype
    let ps ← parameters (command.childrenNamed "param")
    .ok (Signature.normal name returnType (ParamList.ofList ps))

/-- The signatures that commands define, in order. -/
def signatures : List Element → Except Fault (List Signature)
  | [] => .ok []
  | command :: rest => do
    let s ← signature command
    let ss ← signatures rest
    .ok (s :: ss)

/-- The commands that a registry defines, in order. -/
def definedCommands (root : Element) : List Element :=
  (root.childrenNamed "commands").flatMap fun block => block.childrenNamed "command"

/-- The signature that the last definition of a name gives. -/
def lookup? (table : List Signature) (name : String) : Option Signature :=
  table.reverse.find? (·.name == name)

/-! ## Requirements -/

/-- Whether a requirement applies to an API. -/
def applies (requirement : Element) (api : String) : Bool :=
  (match requirement.attribute? "api" with
    | none => true
    | some other => other == api) &&
  (match requirement.attribute? "profile" with
    | none => true
    | some other => other == profile)

/-- Whether an extension supports an API: its list of names, between bars, has the
API in it. -/
def supports (extension : Element) (api : String) : Bool :=
  match extension.attribute? "supported" with
  | none => false
  | some names =>
    ((Text.pieces (· == '|') names.toList).map String.ofList).contains api

/-- The features of an API, then the extensions that support it, in document
order. -/
def applicable (root : Element) (api : String) : List Element :=
  (root.childrenNamed "feature").filter (·.attribute? "api" == some api) ++
    ((root.childrenNamed "extensions").flatMap fun block =>
      (block.childrenNamed "extension").filter (supports · api))

/-- A command that is required by name, and the line of the requirement. -/
structure Mention where
  command : String
  line : Nat
  deriving DecidableEq, Repr

/-- The commands that a feature or extension requires for an API, in order. -/
def mentions (feature : Element) (api : String) : List Mention :=
  ((feature.childrenNamed "require").filter (applies · api)).flatMap fun requirement =>
    (requirement.childrenNamed "command").filterMap fun command =>
      (command.attribute? "name").map fun name => ⟨name, command.line⟩

/-- The declarations of first mentions by one feature, and the commands mentioned so
far. -/
def declareMentions (table : List Signature) (feature : String) (seen : List String) :
    List Mention → Except Fault (List Declaration × List String)
  | [] => .ok ([], seen)
  | m :: rest =>
    if seen.contains m.command then declareMentions table feature seen rest
    else
      match lookup? table m.command with
      | none => .error (.undefinedCommand feature m.command m.line)
      | some s => do
        let (ds, seen) ← declareMentions table feature (m.command :: seen) rest
        .ok (⟨s, feature⟩ :: ds, seen)

/-- The declarations of first mentions by features and extensions. -/
def declareAll (table : List Signature) (api : String) (seen : List String) :
    List Element → Except Fault (List Declaration)
  | [] => .ok []
  | feature :: rest =>
    match feature.attribute? "name" with
    | none => .error (.unnamedFeature feature.name feature.line)
    | some name => do
      let (ds, seen) ← declareMentions table name seen (mentions feature api)
      let more ← declareAll table api seen rest
      .ok (ds ++ more)

/-- The declarations of a registry for an API. -/
def ofRoot (root : Element) (api : String) : Except Fault (List Declaration) :=
  if root.name ≠ "registry" then .error (.wrongRoot root.name root.line)
  else do
    let table ← signatures (definedCommands root)
    declareAll table api [] (applicable root api)

/-- The declarations of a registry text for an API, in order. -/
def declarations (text api : String) : Except Report (List Declaration) :=
  match parse text with
  | .error report => .error report
  | .ok root =>
    match ofRoot root api with
    | .ok ds => .ok ds
    | .error fault => .error fault.report

end CallBridge.Registry
