/-!
# Element trees

A document is a tree of elements.  An element has a name, attributes in the order
in which they are written, the line of its start tag, and children: elements and
runs of text.  Names carry no namespace.
-/

namespace CallBridge.Markup

/-- A child of an element: a run of text, or an element of its own. -/
inductive Node where
  | text (content : String)
  | element (name : String) (attributes : List (String × String)) (line : Nat)
      (children : List Node)
  deriving Repr

/-- An element. -/
structure Element where
  name : String
  attributes : List (String × String)
  line : Nat
  children : List Node
  deriving Repr

namespace Node

/-- The node of an element. -/
def ofElement (e : Element) : Node :=
  .element e.name e.attributes e.line e.children

/-- The element that a node is, if it is one. -/
def element? : Node → Option Element
  | .text _ => none
  | .element name attributes line children => some ⟨name, attributes, line, children⟩

mutual

/-- All text in a node, in document order. -/
def allText : Node → String
  | .text content => content
  | .element _ _ _ children => textOfAll children

/-- All text in a list of nodes, in document order. -/
def textOfAll : List Node → String
  | [] => ""
  | node :: rest => allText node ++ textOfAll rest

end

end Node

namespace Element

/-- The child elements, in order. -/
def elements (e : Element) : List Element :=
  e.children.filterMap Node.element?

/-- The child elements with a name. -/
def childrenNamed (e : Element) (name : String) : List Element :=
  e.elements.filter (·.name == name)

/-- The first child element with a name. -/
def child? (e : Element) (name : String) : Option Element :=
  e.elements.find? (·.name == name)

/-- The value of the first attribute with a name. -/
def attribute? (e : Element) (name : String) : Option String :=
  (e.attributes.find? (·.1 == name)).map Prod.snd

/-- All text inside the element, in document order. -/
def text (e : Element) : String :=
  Node.textOfAll e.children

end Element

end CallBridge.Markup
