import EntityModel.Markup.Name
import EntityModel.Span

/-! # Elements

The element tree keeps what a model is read from: names, attributes in order, child elements, the
text of each element and its span in the source.

* `attribute?`               one attribute, of which the one without a qualifier wins
* `namedChildren`, `child?`  the children of one name, and the first of them
* `preorder`                 an element and all below it, in document order -/

namespace EntityModel.Markup

/-- An attribute, its references resolved. -/
structure Attribute where
  name : Name
  value : String
deriving DecidableEq, Repr

/-- Whether the attribute declares a namespace. -/
def Attribute.declaresNamespace (a : Attribute) : Bool :=
  a.name.qualifier == some "xmlns" ||
    (a.name.qualifier.isNone && a.name.localPart == "xmlns")

/-- An element of a document. -/
structure Element where
  name : Name
  attributes : List Attribute
  children : List Element
  text : String
  span : Span

namespace Element

/-- The name of the element less its qualifier, which is all that models look at. -/
def localName (e : Element) : String := e.name.localPart

/-- The children of the given local name. -/
def namedChildren (e : Element) (name : String) : List Element :=
  e.children.filter fun child => child.localName == name

/-- The first child of the given local name. -/
def child? (e : Element) (name : String) : Option Element :=
  e.children.find? fun child => child.localName == name

/-- The attributes of the given local name, namespace declarations aside. -/
def candidates (e : Element) (name : String) : List Attribute :=
  e.attributes.filter fun a => a.name.localPart == name && !a.declaresNamespace

/-- The value of the attribute of the given local name.  One without a qualifier wins over those
    with one, of which the first counts. -/
def attribute? (e : Element) (name : String) : Option String :=
  let found := e.candidates name
  match found.find? fun a => a.name.qualifier.isNone with
  | some a => some a.value
  | none => found.head?.map (·.value)

/-- The attributes with a qualifier, namespace declarations aside. -/
def qualifiedAttributes (e : Element) : List Attribute :=
  e.attributes.filter fun a => a.name.qualifier.isSome && !a.declaresNamespace

/-- The first child of a name is the first of the children of that name. -/
theorem child?_eq_head? (e : Element) (name : String) :
    e.child? name = (e.namedChildren name).head? := by
  simp [child?, namedChildren, List.head?_filter]

mutual

/-- The element and all below it, in document order. -/
def preorder (e : Element) : List Element :=
  match e with
  | ⟨name, attributes, children, text, span⟩ =>
    ⟨name, attributes, children, text, span⟩ :: preorderAll children

/-- The elements of a list and all below them, in document order. -/
def preorderAll (es : List Element) : List Element :=
  match es with
  | [] => []
  | e :: rest => preorder e ++ preorderAll rest

end

theorem preorder_eq (e : Element) : e.preorder = e :: preorderAll e.children := by
  obtain ⟨name, attributes, children, text, span⟩ := e
  rw [preorder]

end Element

end EntityModel.Markup
