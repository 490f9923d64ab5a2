import Concordance.Xml.Event

/-!
# Reading documents

A plain reader of markup.  It first cuts a text into events and then puts the events together to
trees.  References to the five characters that markup claims are resolved, values and texts are
otherwise taken as they stand, and tags have to match.  Names are what markup lets stand for them;
whether XML allows all of their characters is not asked here.
-/

namespace Concordance.Xml

/-! ## Pieces of markup -/

/-- The characters that separate the parts of a tag. -/
def isSpace (c : Char) : Bool :=
  c == ' ' || c == '\t' || c == '\n' || c == '\r'

/-- Whether a name goes on with `c`: it ends at white space and at what delimits markup. -/
def isNameChar (c : Char) : Bool :=
  !(isSpace c || ['<', '>', '/', '=', '"', '\'', '&', '?', '!'].contains c)

/-- The text that stands for itself, with its references resolved. -/
def unescape? : List Char → Option (List Char)
  | [] => some []
  | '&' :: 'l' :: 't' :: ';' :: rest => (unescape? rest).map ('<' :: ·)
  | '&' :: 'g' :: 't' :: ';' :: rest => (unescape? rest).map ('>' :: ·)
  | '&' :: 'a' :: 'm' :: 'p' :: ';' :: rest => (unescape? rest).map ('&' :: ·)
  | '&' :: 'a' :: 'p' :: 'o' :: 's' :: ';' :: rest => (unescape? rest).map ('\'' :: ·)
  | '&' :: 'q' :: 'u' :: 'o' :: 't' :: ';' :: rest => (unescape? rest).map ('"' :: ·)
  | c :: rest => if c = '&' ∨ c = '<' then none else (unescape? rest).map (c :: ·)

/-- A name at the beginning, with what follows it. -/
def name? (cs : List Char) : Option (String × List Char) :=
  match cs.takeWhile isNameChar with
  | [] => none
  | name => some (String.ofList name, cs.dropWhile isNameChar)

/-- A value up to the given quotation mark, with what follows the mark. -/
def value? (quote : Char) (cs : List Char) : Option (String × List Char) :=
  match unescape? (cs.takeWhile (· != quote)), cs.dropWhile (· != quote) with
  | some value, _ :: rest => some (String.ofList value, rest)
  | _, _ => none

/-- An attribute at the beginning, with what follows it. -/
def attribute? (cs : List Char) : Option ((String × String) × List Char) := do
  let (name, rest) ← name? cs
  match rest with
  | '=' :: '"' :: rest => (value? '"' rest).map fun (value, rest) => ((name, value), rest)
  | '=' :: '\'' :: rest => (value? '\'' rest).map fun (value, rest) => ((name, value), rest)
  | _ => none

/-- The attributes at the beginning, each after white space, with what follows them. -/
def attributes? (cs : List Char) : Option (Attributes × List Char) :=
  let next := cs.dropWhile isSpace
  match (name? next).isSome && next.length < cs.length with
  | false => some ([], next)
  | true =>
    match attribute? next with
    | none => none
    | some (first, rest) =>
      if rest.length < cs.length then
        (attributes? rest).map fun (others, rest) => (first :: others, rest)
      else none
termination_by cs.length

/-- A start tag or the tag of an empty element behind its first bracket.  No attribute may come
twice. -/
def tag? (cs : List Char) : Option (Event × List Char) := do
  let (name, rest) ← name? cs
  let (attributes, rest) ← attributes? rest
  if (attributes.map Prod.fst).Nodup then
    match rest with
    | '>' :: rest => some (.start name attributes, rest)
    | '/' :: '>' :: rest => some (.empty name attributes, rest)
    | _ => none
  else none

/-- The body of a comment up to the first two hyphens, with what follows these. -/
def untilHyphens? : List Char → Option (List Char × List Char)
  | '-' :: '-' :: rest => some ([], rest)
  | c :: rest => (untilHyphens? rest).map fun (body, rest) => (c :: body, rest)
  | [] => none

/-- The event at the beginning of a text, with what follows it. -/
def event? : List Char → Option (Event × List Char)
  | '<' :: '?' :: 'x' :: 'm' :: 'l' :: rest =>
    match attributes? rest with
    | some ([("version", "1.0"), ("encoding", "UTF-8")], '?' :: '>' :: rest) =>
      some (.declaration, rest)
    | _ => none
  | '<' :: '!' :: '-' :: '-' :: rest =>
    match untilHyphens? rest with
    | some (body, '>' :: rest) => some (.comment (String.ofList body), rest)
    | _ => none
  | '<' :: '/' :: rest =>
    match name? rest with
    | some (name, '>' :: rest) => some (.finish name, rest)
    | _ => none
  | '<' :: rest => tag? rest
  | cs =>
    (unescape? (cs.takeWhile (· != '<'))).map fun content =>
      (.text (String.ofList content), cs.dropWhile (· != '<'))

/-- The events of a whole text.  Every event takes something away from it. -/
def events? (cs : List Char) : Option (List Event) :=
  if cs = [] then some []
  else
    match event? cs with
    | none => none
    | some (event, rest) =>
      if rest.length < cs.length then (events? rest).map (event :: ·) else none
termination_by cs.length

/-! ## Trees -/

/-- An item of the content of a document that was read. -/
inductive Node where
  | element (name : String) (attributes : Attributes) (content : List Node)
  | comment (body : String)
  | text (content : String)

/-- An element that is still open, with what stands before it in the element around it. -/
structure Frame where
  name : String
  attributes : Attributes
  before : List Node

/-- Puts events together to the content of a document, inside the given open elements and behind
the given content of the innermost of them. -/
def build? : List Frame → List Node → List Event → Option (List Node)
  | [], content, [] => some content
  | _ :: _, _, [] => none
  | frames, content, .start name attributes :: rest =>
    build? (⟨name, attributes, content⟩ :: frames) [] rest
  | frame :: frames, content, .finish name :: rest =>
    if name = frame.name then
      build? frames (frame.before ++ [.element name frame.attributes content]) rest
    else none
  | [], _, .finish _ :: _ => none
  | frames, content, .empty name attributes :: rest =>
    build? frames (content ++ [.element name attributes []]) rest
  | frames, content, .comment body :: rest => build? frames (content ++ [.comment body]) rest
  | frames, content, .text text :: rest => build? frames (content ++ [.text text]) rest
  | _, _, .declaration :: _ => none

def isBlank (text : String) : Bool :=
  text.toList.all isSpace

/-- The one element of the content of a document.  Around it only comments and white space may
stand. -/
def root? : List Node → Option Node
  | [] => none
  | .comment _ :: rest => root? rest
  | .text content :: rest => if isBlank content then root? rest else none
  | .element name attributes content :: rest =>
    if rest.all fun
        | .comment _ => true
        | .text content => isBlank content
        | .element .. => false
    then some (.element name attributes content) else none

/-- The root of a document: a declaration with one element after it. -/
def document? (text : String) : Option Node :=
  match events? text.toList with
  | some (.declaration :: events) => (build? [] [] events).bind root?
  | _ => none

/-- The root of a document given by its bytes. -/
def ofBytes? (bytes : ByteArray) : Option Node :=
  (String.fromUTF8? bytes).bind document?

end Concordance.Xml
