import Concordance.Proofs.Batch.Alone
import Concordance.Proofs.Definition.Notations

/-!
# The notations agree

A definition that is written in both notations comes to the same crosswalk and to the same
stylesheet from either text.
-/

namespace Concordance

namespace Definition.Written

variable {definition : Definition} {format : Notation} {text : String} {source : Path}

theorem loaded (h : definition.Written format text) (hsource : source.notation? = some format) :
    Concordance.loaded source (.ok text.toUTF8) = definition.resolve.mapError .unresolved := by
  simp only [Concordance.loaded, h.ofFile hsource]

/-- What becomes of a text does not depend on the notation, errors apart, which name the file. -/
theorem draft_toOption (h : definition.Written format text)
    (hsource : source.notation? = some format) :
    (draft source (.ok text.toUTF8)).toOption =
      (definition.resolve.toOption.bind fun resolved =>
        (resolved.crosswalk.stylesheet resolved.container).toOption.map (resolved, ·)) := by
  rw [draft, h.loaded hsource]
  cases definition.resolve with
  | error error => rfl
  | ok resolved =>
    have hloaded : (Except.ok resolved).mapError LoadError.unresolved = .ok resolved := rfl
    cases hstylesheet : resolved.crosswalk.stylesheet resolved.container with
    | error error => simp [Except.toOption, hloaded, hstylesheet]
    | ok text => simp [Except.toOption, hloaded, hstylesheet]

end Definition.Written

/-- The notations agree.  Every definition can be written in each of them, and every text that
writes it is read as the definition.  Two such texts, whether of one notation or of both, resolve
with the same result and come to the same stylesheet, byte for byte, or both to none. -/
theorem Definition.notations_agree (definition : Definition) :
    (∀ format, ∃ text, definition.Written format text) ∧
    (∀ format text, definition.Written format text → ofText format text = .ok definition) ∧
    ∀ (format other : Notation) (text text' : String) (source source' : Path),
      definition.Written format text → definition.Written other text' →
      source.notation? = some format → source'.notation? = some other →
        loaded source (.ok text.toUTF8) = loaded source' (.ok text'.toUTF8) ∧
        (draft source (.ok text.toUTF8)).toOption =
          (draft source' (.ok text'.toUTF8)).toOption := by
  refine ⟨definition.exists_written, fun format text h => h.ofText, ?_⟩
  intro format other text text' source source' h h' hsource hsource'
  constructor
  · rw [h.loaded hsource, h'.loaded hsource']
  · rw [h.draft_toOption hsource, h'.draft_toOption hsource']

/-- A definition of concepts with their identifiers. -/
def concepts : Definition where
  bindings := .empty
  documentId := some "rdf:about"
  parent := ⟨"skos:Concept", "skos:Concept", false, []⟩
  children := []
  container := none

/-- The TOML text leaves out that no text is kept. -/
def conceptsToml : String :=
  "[mapping]\ndocument_id = \"rdf:about\" # the record\n\n" ++
    "[mapping.parent]\nfrom = 'skos:Concept'\nto = \"skos:Concept\"\n"

/-- The JSON text has its keys in another order. -/
def conceptsJson : String :=
  "\x7b\"mapping\": \x7b\"parent\": \x7b\"to\": \"skos:Concept\", " ++
    "\"from\": \"skos:Concept\", \"include_value\": false\x7d, " ++
    "\"document_id\": \"rdf:about\"\x7d\x7d"

theorem concepts_parent_shown {entries : List (String × Datum)}
    (hnodup : (entries.map Prod.fst).Nodup)
    (hentries : ∀ entry ∈ entries, entry = ("from", .string "skos:Concept") ∨
      entry = ("to", .string "skos:Concept") ∨ entry = ("include_value", .boolean false))
    (hfrom : "from" ∈ entries.map Prod.fst) (hto : "to" ∈ entries.map Prod.fst) :
    concepts.parent.Shown (.table entries) := by
  refine .table hnodup (fun entry hentry => ?_) ?_
  · rcases hentries entry hentry with rfl | rfl | rfl
    all_goals simp [RuleDefinition.fields, concepts]
  · simp only [RuleDefinition.fields, List.forall_mem_cons]
    exact ⟨Or.inl hfrom, Or.inl hto, Or.inr rfl, Or.inr rfl, by simp⟩

theorem concepts_shown {parent : Datum} (hparent : concepts.parent.Shown parent)
    {entries : List (String × Datum)} (hnodup : (entries.map Prod.fst).Nodup)
    (hentries : ∀ entry, entry ∈ entries ↔
      entry = ("document_id", .string "rdf:about") ∨ entry = ("parent", parent)) :
    concepts.Shown (.table [("mapping", .table entries)]) := by
  have hrules : ShowsFields Definition.rulesFields concepts (.table entries) := by
    refine .table hnodup (fun entry hentry => ?_) ?_
    · have hid : ShowsOptional concepts.documentId (.string "rdf:about") := .present _
      rcases (hentries entry).1 hentry with rfl | rfl
      all_goals simp [Definition.rulesFields, hid, hparent]
    · have hid := List.mem_map_of_mem (f := Prod.fst) ((hentries _).2 (Or.inl rfl))
      have hkey := List.mem_map_of_mem (f := Prod.fst) ((hentries _).2 (Or.inr rfl))
      simp only [Definition.rulesFields, List.forall_mem_cons]
      exact ⟨Or.inl hid, Or.inl hkey, Or.inr rfl, by simp⟩
  have hbindings : concepts.bindings = .empty := rfl
  have hcontainer : concepts.container = none := rfl
  refine .table ?_ ?_ ?_
  all_goals simp [Definition.fields, hrules, hbindings, hcontainer]

theorem concepts_written_toml : concepts.Written .toml conceptsToml := by
  have hnone := Toml.isSpaces_nil
  have hspace : Toml.IsSpaces [' '] := by simp [Toml.IsSpaces, Toml.isSpace]
  have hkey (key : String) (hne : key.toList ≠ [])
      (h : key.toList.all Toml.isBareChar = true) : Toml.WritesKey key key.toList :=
    .bare hne (List.all_eq_true.1 h)
  have hbefore {key : String} {cs : List Char} (h : Toml.WritesKey key cs) :
      Toml.WritesBefore [key] (cs ++ [' '] ++ '=' :: [' ']) :=
    .equals (.last h) (by simp [Toml.depthLimit]) hspace hspace
  have hmapping := hkey "mapping" (by decide) (by decide)
  have hparent := hkey "parent" (by decide) (by decide)
  have hid := Toml.WritesLine.assignment (hbefore (hkey "document_id" (by decide) (by decide)))
    (.string (.basic (@Toml.spelled_self "rdf:about".toList (by simp [Toml.isLineChar]))))
  have hfrom := Toml.WritesLine.assignment (hbefore (hkey "from" (by decide) (by decide)))
    (.string (@Toml.WritesString.literal "skos:Concept"
      (by simp [Toml.IsLiteral, Toml.isLineChar])))
  have hto := Toml.WritesLine.assignment (hbefore (hkey "to" (by decide) (by decide)))
    (.string (.basic (@Toml.spelled_self "skos:Concept".toList (by simp [Toml.isLineChar]))))
  have hcomment : Toml.IsTrail ([' '] ++ '#' :: " the record".toList) :=
    .comment hspace (by simp [Toml.isLineChar])
  have hlines : Toml.WritesLines _ _ :=
    .line .nil (.header (.last hmapping) (by decide) hnone hnone) (.spaces hnone) (Or.inl rfl)
      (.line .nil hid hcomment (Or.inl rfl)
        (.line (.newline (Or.inl rfl) .nil)
          (.header (.more hmapping hnone hnone (.last hparent)) (by decide) hnone hnone)
          (.spaces hnone) (Or.inl rfl)
          (.line .nil hfrom (.spaces hnone) (Or.inl rfl)
            (.line .nil hto (.spaces hnone) (Or.inl rfl)
              (.nothing .nil (.spaces hnone))))))
  have hlays : Toml.Lays [] (.content [("mapping", .table [("document_id", .string "rdf:about"),
      ("parent", .table [("from", .string "skos:Concept"), ("to", .string "skos:Concept")])])]) _ :=
    @Toml.Lays.content [] [] _ _ _ .nil
      (.table (by simp)
        (@Toml.Lays.content _ [_] [_] _ _ (.entry (by simp) .nil)
          (.table (by simp)
            (@Toml.Lays.content _ [_, _] [] _ _ (.entry (by simp) (.entry (by simp) .nil)) .nothing
              (by simp)) .nothing)
          (by simp)) .nothing)
      (by simp)
  have htext := Toml.WritesText.text (Or.inl rfl) hlays hlines
  have hshown : concepts.parent.Shown
      (.table [("from", .string "skos:Concept"), ("to", .string "skos:Concept")]) :=
    concepts_parent_shown (by simp) (by simp) (by simp) (by simp)
  exact .toml (concepts_shown hshown (by simp) (by simp))
    ((congrArg (Toml.WritesText _) (by decide +kernel)).mp htext)

theorem concepts_written_json : concepts.Written .json conceptsJson := by
  have hspelled (text : String)
      (h : text.toList.all fun c => 0x20 ≤ c.toNat ∧ c ≠ '"' ∧ c ≠ '\\') :
      Json.Spelled text.toList text.toList :=
    Json.spelled_self (by simpa using h)
  have hnone := Json.isGap_nil
  have hspace : Json.IsGap [' '] := by simp [Json.IsGap, Json.isSpace]
  have hcolon : Json.IsColon [':', ' '] := ⟨[], [' '], hnone, hspace, rfl⟩
  have hconcept := Json.Writes.string (hspelled "skos:Concept" (by decide))
  have hparent := Json.Writes.table hnone
    (.entry (hspelled "to" (by decide)) hcolon hconcept hnone hspace
      (.entry (hspelled "from" (by decide)) hcolon hconcept hnone hspace
        (.lastEntry (hspelled "include_value" (by decide)) hcolon (.boolean false) hnone)))
  have hmapping := Json.Writes.table hnone
    (.entry (hspelled "parent" (by decide)) hcolon hparent hnone hspace
      (.lastEntry (hspelled "document_id" (by decide)) hcolon
        (.string (hspelled "rdf:about" (by decide))) hnone))
  have htext := Json.WritesText.text hnone (.table hnone
    (.lastEntry (hspelled "mapping" (by decide)) hcolon hmapping hnone)) hnone
  have hshown : concepts.parent.Shown (.table [("to", .string "skos:Concept"),
      ("from", .string "skos:Concept"), ("include_value", .boolean false)]) :=
    concepts_parent_shown (by simp) (by simp) (by simp) (by simp)
  exact .json (concepts_shown hshown (by simp) (by simp [or_comm]))
    ((congrArg (Json.WritesText _) (by decide +kernel)).mp htext)

theorem concepts_notations_agree :
    concepts.Written .toml conceptsToml ∧ concepts.Written .json conceptsJson ∧
      Path.notation? ⟨"concepts.toml"⟩ = some .toml ∧
      Path.notation? ⟨"concepts.json"⟩ = some .json ∧
      Definition.ofText .toml conceptsToml = .ok concepts ∧
      Definition.ofText .json conceptsJson = .ok concepts ∧
      loaded ⟨"concepts.toml"⟩ (.ok conceptsToml.toUTF8) =
        loaded ⟨"concepts.json"⟩ (.ok conceptsJson.toUTF8) ∧
      (draft ⟨"concepts.toml"⟩ (.ok conceptsToml.toUTF8)).toOption =
        (draft ⟨"concepts.json"⟩ (.ok conceptsJson.toUTF8)).toOption := by
  have htoml : Path.notation? ⟨"concepts.toml"⟩ = some .toml := by decide +kernel
  have hjson : Path.notation? ⟨"concepts.json"⟩ = some .json := by decide +kernel
  obtain ⟨-, hread, hagree⟩ := Definition.notations_agree concepts
  exact ⟨concepts_written_toml, concepts_written_json, htoml, hjson,
    hread _ _ concepts_written_toml, hread _ _ concepts_written_json,
    hagree _ _ _ _ _ _ concepts_written_toml concepts_written_json htoml hjson⟩

end Concordance
