import Concordance.Name.Fault

/-!
# Why a stylesheet is not written

A crosswalk without a record identifier, or one whose names cannot all be declared on the root of
the stylesheet, has no stylesheet; a sink may refuse what is written to it.
-/

namespace Concordance

/-- Why a sink did not take everything. -/
inductive SinkFailure where
  /-- A write took nothing although something was offered. -/
  | tookNothing
  /-- A write or the final flush failed for the given reason. -/
  | refused (reason : String)
  deriving Repr, DecidableEq

def SinkFailure.message : SinkFailure → String
  | .tookNothing => "failed to write whole buffer"
  | .refused reason => reason

/-- Why a stylesheet is not written. -/
inductive StylesheetError where
  /-- The crosswalk of the given parent tag does not identify its records. -/
  | unidentified (parent : String)
  /-- A prefix that XML keeps for itself is bound to another URI. -/
  | reservedPrefix (label uri : String)
  /-- One prefix is bound to two URIs. -/
  | sharedPrefix (label first second : String)
  /-- An element of the namespace of XML has some other prefix. -/
  | foreignXmlPrefix (element : String)
  /-- One URI is used with two prefixes. -/
  | splitNamespace (uri declared used : String)
  /-- A name or the crosswalk was refused before. -/
  | fault (cause : Fault)
  /-- The sink did not take the stylesheet. -/
  | output (failure : SinkFailure)
  deriving Repr, DecidableEq

namespace StylesheetError

/-- The setting that a configuration error is about; a failed output is about none. -/
def setting? : StylesheetError → Option String
  | .unidentified _ => some "document_id_mapping"
  | .reservedPrefix .. | .sharedPrefix .. | .foreignXmlPrefix _ | .splitNamespace .. =>
    some "namespaces"
  | .fault .missingDocumentId => some "document_id_mapping"
  | .fault .emptyLocalName | .fault (.invalidLocalName _) => some "element"
  | .fault _ => some "namespaces"
  | .output _ => none

/-- What is wrong, without saying where. -/
def detail : StylesheetError → String
  | .unidentified parent => "mapping " ++ parent ++ " has no document identifier element"
  | .reservedPrefix label uri => "prefix " ++ label ++ " is reserved and cannot be bound to " ++ uri
  | .sharedPrefix label first second =>
    "prefix " ++ label ++ " is used for both " ++ first ++ " and " ++ second
  | .foreignXmlPrefix element => "element " ++ element ++ " must use the xml prefix"
  | .splitNamespace uri declared used =>
    "namespace " ++ uri ++ " is used with prefixes " ++ declared ++ " and " ++ used
  | .fault cause => cause.message
  | .output failure => failure.message

def message (error : StylesheetError) : String :=
  match error.setting? with
  | some setting => "invalid mapping configuration (" ++ setting ++ "): " ++ error.detail
  | none => "failed to write stylesheet: " ++ error.detail

end StylesheetError

end Concordance
