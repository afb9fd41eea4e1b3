import EntityModel.Diagnostic.Basic
import EntityModel.Markup.AttributeList

/-! # From tokens to an element tree

A document is built by one pass over its tokens with a stack of the elements that are still open.
Text and `CDATA` go to the innermost of them, a closing tag must name it, and what is closed with
nothing open around it is the root, of which there is one.

* `run_cons`, `run_append`   tokens are taken in one after the other
* `parse`                    the tree of a document, or its first fault -/

namespace EntityModel.Markup

/-- Why a text is not a document. -/
inductive DocumentFault where
  | malformed (fault : SyntaxFault) (position : Nat)
  | tag (fault : TagFault) (span : Span)
  | text (fault : ReferenceFault) (span : Span)
  | secondRoot (span : Span)
  | unclosed (name : String) (opened : Span)
  | noElement (length : Nat)
deriving DecidableEq, Repr

/-- What a fault tells the reader. -/
def DocumentFault.diagnostic : DocumentFault → Diagnostic
  | .malformed f position =>
    (Diagnostic.error .malformedMarkup ("malformed XML: " ++ f.message)).withLabel
      (Span.ofRange position (position + 1)) "here"
  | .tag (.attribute f) span =>
    (Diagnostic.error .malformedMarkup ("malformed attribute: " ++ f.message)).withLabel
      span "in this element"
  | .tag (.value f) span =>
    (Diagnostic.error .malformedMarkup ("invalid attribute value: " ++ f.message)).withLabel
      span "in this element"
  | .text f span =>
    (Diagnostic.error .malformedMarkup ("invalid text content: " ++ f.message)).withLabel
      span "here"
  | .secondRoot span =>
    (Diagnostic.error .malformedMarkup "document has more than one root element").withLabel
      span "second root element"
  | .unclosed name opened =>
    (Diagnostic.error .unexpectedEnd
      ("unexpected end of document: `" ++ name ++ "` is never closed")).withLabel
      opened "opened here"
  | .noElement length =>
    (Diagnostic.error .missingSchema "document contains no elements").withLabel
      (Span.ofRange 0 length) "empty document"

/-- An element that is still open, with its name as written. -/
structure OpenElement where
  writtenName : List Char
  element : Element

/-- A partly read document: the open elements, innermost first, and the root if it is complete. -/
structure Outline where
  pending : List OpenElement
  root : Option Element

namespace Outline

/-- Nothing read yet. -/
def empty : Outline := ⟨[], none⟩

/-- Add a complete element that ends at `stop`. -/
def attach (o : Outline) (e : Element) (stop : Nat) : Except DocumentFault Outline :=
  match o.pending with
  | parent :: rest =>
    let grown := { parent.element with children := parent.element.children ++ [e] }
    .ok { o with pending := ⟨parent.writtenName, grown⟩ :: rest }
  | [] =>
    match o.root with
    | some _ => .error (.secondRoot (Span.ofRange e.span.start stop))
    | none => .ok { o with root := some e }

/-- Add text to the innermost open element; text outside of every element is dropped. -/
def addText (o : Outline) (text : List Char) : Outline :=
  match o.pending with
  | parent :: rest =>
    let grown := { parent.element with text := parent.element.text ++ String.ofList text }
    { o with pending := ⟨parent.writtenName, grown⟩ :: rest }
  | [] => o

end Outline

/-- The span of a tag read between two offsets: it begins at the first `<` of the text there, or at
    the first offset if there is none or if the offsets are not ends of characters. -/
def tagSpan (source : List Char) (start stop : Nat) : Span :=
  match (Text.sliceBytes? source start stop).bind (Text.breakOn ['<']) with
  | some (before, _) => Span.ofRange (start + Text.byteLength before) stop
  | none => Span.ofRange start stop

/-- The element that an opening tag begins. -/
def openTag (content : List Char) (span : Span) : Except DocumentFault OpenElement :=
  match readAttributes content with
  | .error f => .error (.tag f span)
  | .ok attributes =>
    let name := tagName content
    .ok ⟨name, ⟨Name.ofChars name, attributes, [], "", span⟩⟩

/-- Take in one token. -/
def Outline.step (source : List Char) (o : Outline) (t : Token) :
    Except DocumentFault Outline :=
  match t.piece with
  | .skipped => .ok o
  | .verbatim chars => .ok (o.addText chars)
  | .text chars =>
    match unescape chars with
    | .error f => .error (.text f (Span.ofRange t.start t.stop))
    | .ok text => .ok (o.addText text)
  | .opening content selfClosing => do
    let opened ← openTag content (tagSpan source t.start t.stop)
    if selfClosing then o.attach opened.element t.stop
    else .ok { o with pending := opened :: o.pending }
  | .closing name =>
    match o.pending with
    | [] => .error (.malformed (.unmatchedClose (String.ofList name)) t.origin)
    | innermost :: rest =>
      if name = innermost.writtenName then
        let e := innermost.element
        -- the span grows from the opening tag to the whole element
        let whole := { e with span := e.span.union (tagSpan source t.start t.stop) }
        Outline.attach { o with pending := rest } whole t.stop
      else
        .error (.malformed (.mismatchedClose (String.ofList innermost.writtenName)
          (String.ofList name)) t.origin)

/-- Take in a list of tokens. -/
def Outline.run (source : List Char) (o : Outline) (tokens : List Token) :
    Except DocumentFault Outline :=
  tokens.foldlM (Outline.step source) o

/-- The root of a document that has been read to its end. -/
def Outline.finish (o : Outline) (length : Nat) : Except DocumentFault Element :=
  match o.pending with
  | innermost :: _ =>
    .error (.unclosed innermost.element.localName innermost.element.span)
  | [] =>
    match o.root with
    | none => .error (.noElement length)
    | some e => .ok e

/-- The element tree of a document. -/
def parseChars (source : List Char) : Except DocumentFault Element := do
  let (tokens, fault) := scan source
  -- a fault in a token before the place where scanning stopped comes first
  let o ← Outline.empty.run source tokens
  match fault with
  | some (f, position) => .error (.malformed f position)
  | none => o.finish (Text.byteLength source)

/-- The element tree of a document. -/
def parse (source : String) : Except DocumentFault Element := parseChars source.toList

/-! ### What each token does -/

theorem run_nil (source : List Char) (o : Outline) : o.run source [] = .ok o := rfl

theorem run_cons (source : List Char) (o : Outline) (t : Token) (ts : List Token) :
    o.run source (t :: ts) = (o.step source t).bind fun o' => o'.run source ts := by
  simp only [Outline.run, List.foldlM_cons]
  rfl

theorem run_append (source : List Char) (o : Outline) (ts us : List Token) :
    o.run source (ts ++ us) = (o.run source ts).bind fun o' => o'.run source us := by
  simp only [Outline.run, List.foldlM_append]
  rfl

end EntityModel.Markup
