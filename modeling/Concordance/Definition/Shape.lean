import Concordance.Definition.Basic
import Concordance.Definition.Reading

/-!
# The shape of a definition

How a reading becomes a definition.  A record is written as a table of its fields or as the
sequence of their values; a table holds no field twice and none that the record does not have, and
only fields with a default may be left out.  The first fault in the order of the text is reported.
-/

namespace Concordance

namespace Reading

def asString : Reading → Except ShapeError String
  | .string value _ => .ok value
  | other => .error (other.mismatch "a string")

/-- The text of a string, or nothing for a null. -/
def asOptionalString : Reading → Except ShapeError (Option String)
  | .null _ => .ok none
  | other => other.asString.map some

def asBool : Reading → Except ShapeError Bool
  | .boolean value _ => .ok value
  | other => .error (other.mismatch "a boolean")

/-- A value, if what holds it does not break off. -/
def closedWith {α : Type} (value : α) : Ending → Except ShapeError α
  | .closed _ => .ok value
  | .broken => .error .syntactic

/-- The values of a sequence, each read as an `α`. -/
def asList {α : Type} (item : Reading → Except ShapeError α) : Reading → Except ShapeError (List α)
  | .sequence _ items ending => do closedWith (← items.mapM item) ending
  | other => .error (other.mismatch "a sequence")

/-- The bindings of a table of strings; of two with one key the later counts. -/
def asBindings : Reading → Except ShapeError Bindings
  | .table _ entries ending => do
    let bindings ← entries.foldlM (fun (bindings : Bindings) entry => do
      let value ← entry.2.2.asString
      pure (bindings.insertOver (entry.1, value))) .empty
    closedWith bindings ending
  | other => .error (other.mismatch "a map")

end Reading

/-- A record: the name of its type, its fields in order, each with whether it has a default, and
how the value of a field enters the record. -/
structure Shape (σ : Type) where
  name : String
  fields : List (String × Bool)
  enter : String → Reading → σ → Except ShapeError σ

namespace Shape

variable {σ : Type}

/-- The fields of the record as messages list them. -/
def fieldList (shape : Shape σ) : String :=
  match shape.fields.map fun field => "`" ++ field.1 ++ "`" with
  | [] => "there are no fields"
  | [a] => "expected " ++ a
  | [a, b] => "expected " ++ a ++ " or " ++ b
  | several => "expected one of " ++ ", ".intercalate several

/-- What messages call a sequence of the fields. -/
def sequenceName (shape : Shape σ) : String :=
  "struct " ++ shape.name ++ " with " ++ toString shape.fields.length ++
    (if shape.fields.length = 1 then " element" else " elements")

/-- Enters the fields of a table one after another, and gives their names too. -/
def enterEntries (shape : Shape σ) (seen : List String) :
    List (String × Text.Extent × Reading) → σ → Except ShapeError (List String × σ)
  | [], record => .ok (seen, record)
  | (key, extent, value) :: rest, record =>
    if (shape.fields.map Prod.fst).contains key then
      if seen.contains key then .error (.data ("duplicate field `" ++ key ++ "`") extent)
      else do
        let record ← shape.enter key value record
        shape.enterEntries (key :: seen) rest record
    else .error (.data ("unknown field `" ++ key ++ "`, " ++ shape.fieldList) extent)

/-- Enters the values of a sequence as the fields of the same places.  What follows the last field
is let pass only if `surplus` is set. -/
def enterItems (shape : Shape σ) (surplus : Bool) (ending : Ending) (index : Nat) :
    List (String × Bool) → List Reading → σ → Except ShapeError σ
  | [], [], record => Reading.closedWith record ending
  | [], _ :: _, record => if surplus then .ok record else .error .syntactic
  | (name, _) :: fields, item :: items, record => do
    let record ← shape.enter name item record
    shape.enterItems surplus ending (index + 1) fields items record
  | (_, optional) :: fields, [], record =>
    match ending with
    | .broken => .error .syntactic
    | .closed extent =>
      if optional then shape.enterItems surplus ending (index + 1) fields [] record
      else
        .error (.data
          ("invalid length " ++ toString index ++ ", expected " ++ shape.sequenceName) extent)

/-- The record that a reading holds, filled from `record`. -/
def read (shape : Shape σ) (surplus : Bool) (record : σ) : Reading → Except ShapeError σ
  | .table _ entries ending => do
    let (seen, record) ← shape.enterEntries [] entries record
    match ending with
    | .broken => .error .syntactic
    | .closed extent =>
      match shape.fields.find? (fun field => !field.2 && !seen.contains field.1) with
      | some field => .error (.data ("missing field `" ++ field.1 ++ "`") extent)
      | none => .ok record
  | .sequence _ items ending => shape.enterItems surplus ending 0 shape.fields items record
  | other => .error (other.mismatch ("struct " ++ shape.name))

end Shape

def AttributeDefinition.shape : Shape AttributeDefinition where
  name := "AttributeRule"
  fields := [("from", false), ("to", false)]
  enter name value record :=
    match name with
    | "from" => do pure { record with source := ← value.asString }
    | _ => do pure { record with target := ← value.asString }

/-- The attribute correspondence that a reading holds. -/
def AttributeDefinition.ofReading (surplus : Bool) :
    Reading → Except ShapeError AttributeDefinition :=
  shape.read surplus ⟨"", ""⟩

def RuleDefinition.shape (surplus : Bool) : Shape RuleDefinition where
  name := "TagRule"
  fields := [("from", false), ("to", false), ("include_value", true), ("attributes", true)]
  enter name value record :=
    match name with
    | "from" => do pure { record with source := ← value.asString }
    | "to" => do pure { record with target := ← value.asString }
    | "include_value" => do pure { record with keepsText := ← value.asBool }
    | _ => do
      pure { record with attributes := ← value.asList (AttributeDefinition.ofReading surplus) }

def RuleDefinition.ofReading (surplus : Bool) : Reading → Except ShapeError RuleDefinition :=
  (shape surplus).read surplus ⟨"", "", false, []⟩

namespace Definition

/-- The shape of the section that holds the rules. -/
def rulesShape (surplus : Bool) : Shape Definition where
  name := "MappingSection"
  fields := [("document_id", true), ("parent", false), ("children", true)]
  enter name value record :=
    match name with
    | "document_id" => do pure { record with documentId := ← value.asOptionalString }
    | "parent" => do pure { record with parent := ← RuleDefinition.ofReading surplus value }
    | _ => do pure { record with children := ← value.asList (RuleDefinition.ofReading surplus) }

/-- The shape of the section on the output. -/
def outputShape : Shape Definition where
  name := "OutputSection"
  fields := [("record_container", true)]
  enter _ value record := do pure { record with container := ← value.asOptionalString }

/-- The shape of a whole definition. -/
def shape (surplus : Bool) : Shape Definition where
  name := "MappingDocument"
  fields := [("namespaces", true), ("mapping", false), ("output", true)]
  enter name value record :=
    match name with
    | "namespaces" => do pure { record with bindings := ← value.asBindings }
    | "mapping" => (rulesShape surplus).read surplus record value
    | _ => outputShape.read surplus record value

/-- The definition that a reading holds. -/
def ofReading (surplus : Bool) : Reading → Except ShapeError Definition :=
  (shape surplus).read surplus ⟨.empty, none, ⟨"", "", false, []⟩, [], none⟩

end Definition

end Concordance
