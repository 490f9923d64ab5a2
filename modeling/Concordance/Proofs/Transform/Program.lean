import Concordance.Proofs.Stylesheet.Expressions
import Concordance.Proofs.Transform.Instruction

/-!
# The program of a stylesheet

The instructions that the stylesheet of a crosswalk is read as.  They are the same however deep the
markup stands and wherever its lines break: white space around and inside the items is no
instruction, and every prefix resolves to the URI of the name that it was written for.
-/

namespace Concordance

open Namespace (xslUri rdfUri skosUri)
open Xml (Markup Node joined_nil)
open Transform

/-! ## The instructions -/

namespace Program

/-- An attribute that takes a value if a test holds. -/
def filled (test : Test) (name : ExpandedName) (value : Value) : Instruction :=
  .when test [.attribute name [.valueOf value]]

/-- The copies of the attributes of a rule. -/
def copies (rule : Rule) : List Instruction :=
  rule.canonicalAttributes.map fun c =>
    filled (.holds (.attribute .here c.source.expanded)) c.target.expanded
      (.string (.attribute .here c.source.expanded))

/-- The nested concepts that are named. -/
def concepts : LocationPath :=
  .having (.children .here ⟨skosUri, "Concept"⟩) (.attribute .here ⟨rdfUri, "about"⟩)

/-- The fallback to a nested concept, where the rule has one. -/
def fallback (rule : Rule) : List Instruction :=
  if rule.fallback.isEmitted then
    [filled
      (if rule.resourceAttributes = [] then .holds concepts
        else .both (.lacks (.attribute .here ⟨rdfUri, "resource"⟩)) (.holds concepts))
      ⟨rdfUri, "resource"⟩ (.string (.attribute (.first concepts) ⟨rdfUri, "about"⟩))]
  else []

/-- The copy of the text of a tag, where the rule keeps it. -/
def texts (rule : Rule) : List Instruction :=
  if rule.keepsText then
    [.forEach (.filled (.texts .here)) [
      .when (.after 1) [.text " "],
      .valueOf (.normalized .here)]]
  else []

/-- What a child rule makes of the tags of its kind. -/
def child (rule : Rule) : Instruction :=
  .forEach (.children .here rule.tag.source.expanded) [
    .literal rule.tag.target.expanded (copies rule ++ fallback rule ++ texts rule)]

/-- What the crosswalk makes of the record that is asked for. -/
def record (crosswalk : Crosswalk) (documentId : Element) : Instruction :=
  .forEach (.children .here crosswalk.parent.tag.source.expanded) [
    .when (.equals (.attribute .here documentId.expanded) "targetId") [
      .literal crosswalk.parent.tag.target.expanded
        (copies crosswalk.parent ++ crosswalk.children.map child)]]

end Program

/-- The transformation that the stylesheet of a crosswalk stands for. -/
def Crosswalk.program (crosswalk : Crosswalk) (container : Option Element)
    (documentId : Element) : Transformation :=
  ⟨["targetId"], container.elim ⟨rdfUri, "RDF"⟩ Element.expanded,
    [Program.record crosswalk documentId]⟩

namespace Transform

variable {bindings : List (String × String)} {parameters : List String}

/-! ## Reading at any depth -/

/-- Items that are read as the given instructions however they are laid out. -/
inductive Reads (bindings : List (String × String)) (parameters : List String) :
    List Markup → List Instruction → Prop where
  | nil : Reads bindings parameters [] []
  | cons {item : Markup} {items : List Markup} {first rest : List Instruction}
      (hitem : ∀ depth, instruction? bindings parameters (item.node depth) = some first)
      (hitems : Reads bindings parameters items rest) :
      Reads bindings parameters (item :: items) (first ++ rest)

theorem Reads.append {items others : List Markup} {first second : List Instruction}
    (hitems : Reads bindings parameters items first)
    (hothers : Reads bindings parameters others second) :
    Reads bindings parameters (items ++ others) (first ++ second) := by
  induction hitems with
  | nil => exact hothers
  | cons hitem _ ih =>
    rw [List.cons_append, List.append_assoc]
    exact Reads.cons hitem ih

theorem Reads.flatMap {α : Type} {f : α → List Markup} {g : α → List Instruction} {as : List α}
    (h : ∀ a ∈ as, Reads bindings parameters (f a) (g a)) :
    Reads bindings parameters (as.flatMap f) (as.flatMap g) := by
  induction as with
  | nil => exact Reads.nil
  | cons a rest ih =>
    obtain ⟨ha, hrest⟩ := List.forall_mem_cons.1 h
    rw [List.flatMap_cons, List.flatMap_cons]
    exact ha.append (ih hrest)

theorem Reads.singleton {item : Markup} {instruction : Instruction}
    (hitem : ∀ depth, instruction? bindings parameters (item.node depth) = some [instruction]) :
    Reads bindings parameters [item] [instruction] :=
  Reads.cons hitem Reads.nil

theorem Reads.comment_singleton (body : String) {item : Markup} {instruction : Instruction}
    (hitem : ∀ depth, instruction? bindings parameters (item.node depth) = some [instruction]) :
    Reads bindings parameters [.comment body, item] [instruction] := by
  have hcomment : ∀ depth,
      instruction? bindings parameters (Markup.node depth (.comment body)) = some [] :=
    fun _ => rfl
  exact Reads.cons hcomment (Reads.singleton hitem)

theorem instructions?_space_append (depth : Nat) (breaks : Bool) (nodes : List Node) :
    instructions? bindings parameters (Markup.space depth breaks ++ nodes) =
      instructions? bindings parameters nodes := by
  cases breaks with
  | true =>
    rw [Markup.space, if_pos rfl, List.singleton_append, instructions?, instruction?,
      if_pos (Markup.isBlank_margin depth), joined_nil]
  | false => rfl

/-- White space of the layout is no instruction. -/
theorem Reads.instructions?_nodes {items : List Markup} {program : List Instruction}
    (h : Reads bindings parameters items program) (depth : Nat) (breaks : Bool) :
    instructions? bindings parameters (Markup.nodes depth breaks items) = some program := by
  induction h generalizing breaks with
  | nil =>
    rw [Markup.nodes, ← List.append_nil (Markup.space depth breaks), instructions?_space_append,
      instructions?]
  | cons hitem _ ih =>
    rw [Markup.nodes, instructions?_space_append, instructions?, hitem (depth + 1), ih]
    rfl

theorem instruction?_literal {tag : String} {name : ExpandedName} {content : List Markup}
    {body : List Instruction} (htag : expandedName? bindings tag = some name)
    (hname : name.uri ≠ xslUri) (hcontent : Reads bindings parameters content body)
    (depth : Nat) :
    instruction? bindings parameters (Markup.node depth (.element tag [] content)) =
      some [.literal name body] := by
  rw [Markup.node, instruction?, htag]
  simp only [hname, if_false, if_true, hcontent.instructions?_nodes, Option.map_some]

/-- An element of the stylesheet language is the instruction that its name, its attributes and the
instructions in it make. -/
theorem instruction?_xsl {tag localName : String} {attributes : Xml.Attributes}
    {content : List Markup} {body : List Instruction} {instruction : Instruction}
    (htag : expandedName? bindings tag = some ⟨xslUri, localName⟩)
    (hcontent : Reads bindings parameters content body)
    (hinstruction : ∀ nodes, xslInstruction? bindings parameters localName attributes nodes
      (some body) = some instruction) (depth : Nat) :
    instruction? bindings parameters (Markup.node depth (.element tag attributes content)) =
      some [instruction] := by
  rw [Markup.node, instruction?, htag]
  simp only [if_true, hcontent.instructions?_nodes, hinstruction, Option.map_some]

theorem instruction?_empty {tag localName : String} {attributes : Xml.Attributes}
    {instruction : Instruction} (htag : expandedName? bindings tag = some ⟨xslUri, localName⟩)
    (hinstruction : xslInstruction? bindings parameters localName attributes [] (some []) =
      some instruction) (depth : Nat) :
    instruction? bindings parameters (Markup.node depth (.empty tag attributes)) =
      some [instruction] := by
  rw [Markup.node, instruction?, htag, instructions?]
  simp only [if_true, hinstruction, Option.map_some]

/-! ## The instructions of the language -/

variable {expression : String} {lexemes : List Lexeme}

theorem xslInstruction?_forEach {path : LocationPath}
    (hlexemes : lexemes? bindings expression = some lexemes)
    (hpath : pathOf? lexemes = some path) (nodes : List Node) (body : List Instruction) :
    xslInstruction? bindings parameters "for-each" [("select", expression)] nodes (some body) =
      some (.forEach path body) := by
  simp [xslInstruction?, valueOfKey?, hlexemes, hpath]

theorem xslInstruction?_if {test : Test} (hlexemes : lexemes? bindings expression = some lexemes)
    (htest : testOf? parameters lexemes.length lexemes = some test) (nodes : List Node)
    (body : List Instruction) :
    xslInstruction? bindings parameters "if" [("test", expression)] nodes (some body) =
      some (.when test body) := by
  simp [xslInstruction?, valueOfKey?, hlexemes, htest]

theorem xslInstruction?_attribute {written : String} {name : ExpandedName}
    (hname : expandedName? bindings written = some name) (nodes : List Node)
    (body : List Instruction) :
    xslInstruction? bindings parameters "attribute" [("name", written)] nodes (some body) =
      some (.attribute name body) := by
  simp [xslInstruction?, valueOfKey?, hname]

theorem xslInstruction?_valueOf {value : Value}
    (hlexemes : lexemes? bindings expression = some lexemes)
    (hvalue : valueOf? lexemes = some value) (nodes : List Node) (body : List Instruction) :
    xslInstruction? bindings parameters "value-of" [("select", expression)] nodes (some body) =
      some (.valueOf value) := by
  simp [xslInstruction?, valueOfKey?, hlexemes, hvalue]

end Transform

/-! ## Names and expressions under declarations -/

namespace Declarations

variable {declared : Declarations} {written : String} {name : ExpandedName}

theorem expandedName?_of_stands (hdeclared : declared.OneToOne)
    (h : declared.Stands written name) :
    expandedName? declared.bindings written = some name := by
  have htag : Xml.tagName? written = some (declared.pair name) := by
    rw [Xml.tagName?, tokens?_written h]
    rfl
  rw [expandedName?, htag, Option.bind_some, resolve?_pair hdeclared h.bound]

theorem lexeme?_token (hdeclared : declared.OneToOne) (hbound : declared.Bound name) :
    lexeme? declared.bindings (declared.token name) = some (.name name) := by
  rw [token, lexeme?]
  exact congrArg (Option.map Lexeme.name) (resolve?_pair hdeclared hbound)

theorem lexeme?_mark (bindings : List (String × String)) (c : Char) :
    lexeme? bindings (.mark c) = some (.mark c) := rfl

theorem lexeme?_word (bindings : List (String × String)) (word : String) :
    lexeme? bindings (.name none word) = some (.word word) := rfl

theorem lexeme?_number (bindings : List (String × String)) (digits : String) :
    lexeme? bindings (.number digits) = some (.number digits) := rfl

theorem lexemes?_attribute (hdeclared : declared.OneToOne) (h : declared.Stands written name) :
    lexemes? declared.bindings ("@" ++ written) = some [.mark '@', .name name] := by
  rw [lexemes?, tokens?_attribute h]
  simp [lexeme?_token hdeclared h.bound, lexeme?_mark]

theorem lexemes?_children (hdeclared : declared.OneToOne) (h : declared.Stands written name) :
    lexemes? declared.bindings ("./" ++ written) = some [.mark '.', .mark '/', .name name] := by
  rw [lexemes?, tokens?_children h]
  simp [lexeme?_token hdeclared h.bound, lexeme?_mark]

theorem lexemes?_root (hdeclared : declared.OneToOne) (h : declared.Stands written name) :
    lexemes? declared.bindings ("/" ++ written) = some [.mark '/', .name name] := by
  rw [lexemes?, tokens?_root h]
  simp [lexeme?_token hdeclared h.bound, lexeme?_mark]

theorem lexemes?_isTarget (hdeclared : declared.OneToOne) (h : declared.Stands written name) :
    lexemes? declared.bindings ("@" ++ written ++ "=$targetId") =
      some [.mark '@', .name name, .mark '=', .mark '$', .word "targetId"] := by
  rw [lexemes?, tokens?_isTarget h]
  simp [lexeme?_token hdeclared h.bound, lexeme?_mark, lexeme?_word]

variable {concept about resource : String} {conceptName aboutName resourceName : ExpandedName}

theorem mapM_conceptTokens (hdeclared : declared.OneToOne)
    (hconcept : declared.Bound conceptName) (habout : declared.Bound aboutName) :
    (declared.conceptTokens conceptName aboutName).mapM (lexeme? declared.bindings) =
      some [.mark '.', .mark '/', .name conceptName, .mark '[', .mark '@', .name aboutName,
        .mark ']'] := by
  rw [conceptTokens]
  simp [lexeme?_token hdeclared hconcept, lexeme?_token hdeclared habout, lexeme?_mark]

theorem lexemes?_concepts (hdeclared : declared.OneToOne)
    (hconcept : declared.Stands concept conceptName) (habout : declared.Stands about aboutName) :
    lexemes? declared.bindings ("./" ++ concept ++ "[@" ++ about ++ "]") =
      some [.mark '.', .mark '/', .name conceptName, .mark '[', .mark '@', .name aboutName,
        .mark ']'] := by
  rw [lexemes?, tokens?_concepts hconcept habout]
  exact mapM_conceptTokens hdeclared hconcept.bound habout.bound

theorem lexemes?_guarded (hdeclared : declared.OneToOne)
    (hconcept : declared.Stands concept conceptName) (habout : declared.Stands about aboutName)
    (hresource : declared.Stands resource resourceName) :
    lexemes? declared.bindings ("not (@" ++ resource ++ ") and " ++
        ("./" ++ concept ++ "[@" ++ about ++ "]")) =
      some [.word "not", .mark '(', .mark '@', .name resourceName, .mark ')', .word "and",
        .mark '.', .mark '/', .name conceptName, .mark '[', .mark '@', .name aboutName,
        .mark ']'] := by
  rw [lexemes?, tokens?_guarded hconcept habout hresource, Option.bind_some, List.mapM_append,
    mapM_conceptTokens hdeclared hconcept.bound habout.bound]
  simp [lexeme?_token hdeclared hresource.bound, lexeme?_mark, lexeme?_word]

theorem lexemes?_firstAbout (hdeclared : declared.OneToOne)
    (hconcept : declared.Stands concept conceptName) (habout : declared.Stands about aboutName) :
    lexemes? declared.bindings
        ("(" ++ ("./" ++ concept ++ "[@" ++ about ++ "]") ++ ")[1]/@" ++ about) =
      some [.mark '(', .mark '.', .mark '/', .name conceptName, .mark '[', .mark '@',
        .name aboutName, .mark ']', .mark ')', .mark '[', .number "1", .mark ']', .mark '/',
        .mark '@', .name aboutName] := by
  rw [lexemes?, tokens?_firstAbout hconcept habout, Option.bind_some, List.mapM_append,
    List.mapM_cons, mapM_conceptTokens hdeclared hconcept.bound habout.bound]
  simp [lexeme?_token hdeclared habout.bound, lexeme?_mark, lexeme?_number]

end Declarations

end Concordance
