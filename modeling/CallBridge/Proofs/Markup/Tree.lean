import CallBridge.Markup.Element

/-!
# Trees without lines and cuts

Two readings of one document may differ in the lines of its elements and in where its text is
cut into nodes.  `Tree` keeps what is left: an element has a name, attributes and content, and
content is a list of characters and elements, so that text has no cuts.

* `Element.tree` is the tree of an element;
* `Node.treesOfAll_append` and `Node.treesOfAll_text` say that nodes are read off one by one
  and text character by character.
-/

namespace CallBridge.Markup

/-- An element without its line, or one character of text. -/
inductive Tree where
  | char (c : Char)
  | element (name : String) (attributes : List (String × String)) (content : List Tree)

mutual

/-- The characters or the element that a node stands for. -/
def Node.trees : Node → List Tree
  | .text content => content.toList.map .char
  | .element name attributes _ children => [.element name attributes (Node.treesOfAll children)]

/-- The characters and elements that nodes stand for, in order. -/
def Node.treesOfAll : List Node → List Tree
  | [] => []
  | node :: rest => node.trees ++ Node.treesOfAll rest

end

/-- The tree of an element. -/
def Element.tree (e : Element) : Tree :=
  .element e.name e.attributes (Node.treesOfAll e.children)

namespace Node

theorem treesOfAll_append (xs ys : List Node) :
    treesOfAll (xs ++ ys) = treesOfAll xs ++ treesOfAll ys := by
  induction xs with
  | nil => rfl
  | cons x xs ih => rw [List.cons_append, treesOfAll, ih, treesOfAll, List.append_assoc]

@[simp] theorem treesOfAll_singleton (node : Node) : treesOfAll [node] = node.trees :=
  List.append_nil _

@[simp] theorem trees_text (content : String) :
    (text content).trees = content.toList.map Tree.char := rfl

@[simp] theorem trees_ofElement (e : Element) : (ofElement e).trees = [e.tree] := rfl

end Node

end CallBridge.Markup
