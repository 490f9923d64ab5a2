import Concordance.Name.Fault
import Concordance.Name.NCName
import Concordance.Text.Blank

/-!
# Namespaces

A namespace is a URI with the prefix that its names are written with.  The URI alone says which
namespace it is: two namespaces of one URI are the same one, whatever their prefixes.
-/

namespace Concordance

/-- A namespace URI that is not blank, with a prefix that is a name. -/
structure Namespace where
  label : String
  uri : String
  label_isName : isNCName label = true
  uri_notBlank : Text.isBlank uri = false
  deriving DecidableEq

namespace Namespace

/-- The namespace of a prefix and a URI, or what is wrong with them. -/
def ofPair (label uri : String) : Except Fault Namespace :=
  if Text.isBlank label then .error (.emptyPrefix uri)
  else if hlabel : isNCName label = true then
    if huri : Text.isBlank uri = false then .ok ⟨label, uri, hlabel, huri⟩
    else .error (.emptyUri label)
  else .error (.invalidPrefix label uri)

/-- Namespaces are ordered by their URIs. -/
def cmp : Namespace → Namespace → Ordering :=
  compareOn uri

instance : Std.TransCmp cmp :=
  inferInstanceAs (Std.TransCmp (compareOn uri))

/-- The URI that XML itself reserves for its own attributes. -/
def xmlUri : String := "http://www.w3.org/XML/1998/namespace"

/-- The URI of the stylesheet language. -/
def xslUri : String := "http://www.w3.org/1999/XSL/Transform"

/-- The URI of the RDF syntax. -/
def rdfUri : String := "http://www.w3.org/1999/02/22-rdf-syntax-ns#"

/-- The URI of the SKOS vocabulary. -/
def skosUri : String := "http://www.w3.org/2004/02/skos/core#"

/-- The namespace of XML itself, which no document declares. -/
def xml : Namespace := ⟨"xml", xmlUri, by decide, by decide⟩

/-- The namespace of the stylesheet language. -/
def xsl : Namespace := ⟨"xsl", xslUri, by decide, by decide⟩

/-- The namespace of the RDF syntax. -/
def rdf : Namespace := ⟨"rdf", rdfUri, by decide, by decide⟩

/-- The namespace of the SKOS vocabulary. -/
def skos : Namespace := ⟨"skos", skosUri, by decide, by decide⟩

/-- The namespaces that every definition may use without binding them. -/
def builtins : List Namespace := [
  xml,
  xsl,
  rdf,
  ⟨"rdfs", "http://www.w3.org/2000/01/rdf-schema#", by decide, by decide⟩,
  skos,
  ⟨"dc", "http://purl.org/dc/elements/1.1/", by decide, by decide⟩,
  ⟨"dcterms", "http://purl.org/dc/terms/", by decide, by decide⟩,
  ⟨"edm", "http://www.europeana.eu/schemas/edm/", by decide, by decide⟩,
  ⟨"ore", "http://www.openarchives.org/ore/terms/", by decide, by decide⟩,
  ⟨"owl", "http://www.w3.org/2002/07/owl#", by decide, by decide⟩,
  ⟨"foaf", "http://xmlns.com/foaf/0.1/", by decide, by decide⟩,
  ⟨"wgs84_pos", "http://www.w3.org/2003/01/geo/wgs84_pos#", by decide, by decide⟩,
  ⟨"rdaGr2", "http://rdvocab.info/ElementsGr2/", by decide, by decide⟩,
  ⟨"cc", "http://creativecommons.org/ns#", by decide, by decide⟩,
  ⟨"xsi", "http://www.w3.org/2001/XMLSchema-instance", by decide, by decide⟩,
  ⟨"gn", "http://www.geonames.org/ontology#", by decide, by decide⟩]

end Namespace

end Concordance
