import Concordance.Proofs.Stylesheet.Binding

/-!
# The expressions of a stylesheet

The tokens of every expression that stylesheets hold, with each name as the token of the expanded
name that it stands for.
-/

namespace Concordance

open Xpath (Token tokens? tokens?_mark tokens?_space tokens?_word tokens?_one tokens?_nil EndsName
  endsName_nil endsName_cons)

/-! ## Fixed expressions -/

theorem tokens?_targetId : tokens? "targetId".toList = some [.name none "targetId"] := by
  have hword := tokens?_word (by decide : isNCName "targetId" = true) endsName_nil
  rw [List.append_nil, tokens?_nil] at hword
  exact hword

theorem tokens?_textNodes : tokens? "text()[normalize-space()]".toList =
    some [.name none "text", .mark '(', .mark ')', .mark '[', .name none "normalize-space",
      .mark '(', .mark ')', .mark ']'] := by
  have htext : "text()[normalize-space()]".toList =
      "text".toList ++ '(' :: ')' :: '[' :: ("normalize-space".toList ++ ['(', ')', ']']) := rfl
  have hopens : ∀ rest, EndsName ('(' :: rest) := endsName_cons (by decide) (by decide)
  rw [htext, tokens?_word (by decide) (hopens _), tokens?_mark (by decide),
    tokens?_mark (by decide), tokens?_mark (by decide), tokens?_word (by decide) (hopens _),
    tokens?_mark (by decide), tokens?_mark (by decide), tokens?_mark (by decide), tokens?_nil]
  rfl

theorem tokens?_notFirst : tokens? "position() > 1".toList =
    some [.name none "position", .mark '(', .mark ')', .mark '>', .number "1"] := by
  have htext : "position() > 1".toList =
      "position".toList ++ ['(', ')', ' ', '>', ' ', '1'] := rfl
  rw [htext, tokens?_word (by decide) (endsName_cons (by decide) (by decide) _),
    tokens?_mark (by decide), tokens?_mark (by decide), tokens?_space, tokens?_mark (by decide),
    tokens?_space, tokens?_one (by simp), tokens?_nil]
  rfl

theorem tokens?_normalized : tokens? "normalize-space(.)".toList =
    some [.name none "normalize-space", .mark '(', .mark '.', .mark ')'] := by
  have htext : "normalize-space(.)".toList = "normalize-space".toList ++ ['(', '.', ')'] := rfl
  rw [htext, tokens?_word (by decide) (endsName_cons (by decide) (by decide) _),
    tokens?_mark (by decide), tokens?_mark (by decide), tokens?_mark (by decide), tokens?_nil]
  rfl

/-! ## Expressions of one name -/

namespace Declarations

variable {declared : Declarations} {written : String} {name : ExpandedName}

/-- The token of a name that is written under declarations. -/
def token (declared : Declarations) (name : ExpandedName) : Token :=
  .name (some (declared.prefixOf name.uri)) name.localName

theorem tokens?_written (h : declared.Stands written name) :
    tokens? written.toList = some [declared.token name] := by
  have hname := tokens?_of_stands h endsName_nil
  rw [List.append_nil, tokens?_nil] at hname
  exact hname

theorem tokens?_attribute (h : declared.Stands written name) :
    tokens? ("@" ++ written).toList = some [.mark '@', declared.token name] := by
  have htext : ("@" ++ written).toList = '@' :: written.toList := by simp
  rw [htext, tokens?_mark (by decide), tokens?_written h]
  rfl

theorem tokens?_root (h : declared.Stands written name) :
    tokens? ("/" ++ written).toList = some [.mark '/', declared.token name] := by
  have htext : ("/" ++ written).toList = '/' :: written.toList := by simp
  rw [htext, tokens?_mark (by decide), tokens?_written h]
  rfl

theorem tokens?_children (h : declared.Stands written name) :
    tokens? ("./" ++ written).toList = some [.mark '.', .mark '/', declared.token name] := by
  have htext : ("./" ++ written).toList = '.' :: '/' :: written.toList := by simp
  rw [htext, tokens?_mark (by decide), tokens?_mark (by decide), tokens?_written h]
  rfl

theorem tokens?_isTarget (h : declared.Stands written name) :
    tokens? ("@" ++ written ++ "=$targetId").toList =
      some [.mark '@', declared.token name, .mark '=', .mark '$', .name none "targetId"] := by
  have htext : ("@" ++ written ++ "=$targetId").toList =
      '@' :: (written.toList ++ '=' :: '$' :: "targetId".toList) := by simp
  rw [htext, tokens?_mark (by decide),
    tokens?_of_stands h (endsName_cons (by decide) (by decide) _), tokens?_mark (by decide),
    tokens?_mark (by decide), tokens?_targetId]
  rfl

/-! ## Expressions of the fallback -/

variable {concept about resource : String} {conceptName aboutName resourceName : ExpandedName}

/-- The tokens of the path of the nested concepts that are named. -/
def conceptTokens (declared : Declarations) (conceptName aboutName : ExpandedName) : List Token :=
  [.mark '.', .mark '/', declared.token conceptName, .mark '[', .mark '@',
    declared.token aboutName, .mark ']']

theorem tokens?_concepts_append (hconcept : declared.Stands concept conceptName)
    (habout : declared.Stands about aboutName) (rest : List Char) :
    tokens? (("./" ++ concept ++ "[@" ++ about ++ "]").toList ++ rest) =
      (tokens? rest).map (declared.conceptTokens conceptName aboutName ++ ·) := by
  have htext : ("./" ++ concept ++ "[@" ++ about ++ "]").toList ++ rest =
      '.' :: '/' :: (concept.toList ++ '[' :: '@' :: (about.toList ++ ']' :: rest)) := by simp
  rw [htext, tokens?_mark (by decide), tokens?_mark (by decide),
    tokens?_of_stands hconcept (endsName_cons (by decide) (by decide) _), tokens?_mark (by decide),
    tokens?_mark (by decide), tokens?_of_stands habout (endsName_cons (by decide) (by decide) _),
    tokens?_mark (by decide)]
  simp only [Option.map_map]
  rfl

theorem tokens?_concepts (hconcept : declared.Stands concept conceptName)
    (habout : declared.Stands about aboutName) :
    tokens? ("./" ++ concept ++ "[@" ++ about ++ "]").toList =
      some (declared.conceptTokens conceptName aboutName) := by
  have h := tokens?_concepts_append hconcept habout []
  rw [List.append_nil, tokens?_nil, Option.map_some, List.append_nil] at h
  exact h

theorem tokens?_guarded (hconcept : declared.Stands concept conceptName)
    (habout : declared.Stands about aboutName) (hresource : declared.Stands resource resourceName) :
    tokens? ("not (@" ++ resource ++ ") and " ++
        ("./" ++ concept ++ "[@" ++ about ++ "]")).toList =
      some ([.name none "not", .mark '(', .mark '@', declared.token resourceName, .mark ')',
        .name none "and"] ++ declared.conceptTokens conceptName aboutName) := by
  have htext : ("not (@" ++ resource ++ ") and " ++
      ("./" ++ concept ++ "[@" ++ about ++ "]")).toList =
        "not".toList ++ ' ' :: '(' :: '@' :: (resource.toList ++ ')' :: ' ' :: ("and".toList ++
          ' ' :: ("./" ++ concept ++ "[@" ++ about ++ "]").toList)) := by
    rw [String.toList_append, String.toList_append, String.toList_append]
    simp only [List.append_assoc]
    rfl
  have hspace : ∀ rest, EndsName (' ' :: rest) := endsName_cons (by decide) (by decide)
  rw [htext, tokens?_word (by decide) (hspace _), tokens?_space, tokens?_mark (by decide),
    tokens?_mark (by decide),
    tokens?_of_stands hresource (endsName_cons (by decide) (by decide) _),
    tokens?_mark (by decide), tokens?_space, tokens?_word (by decide) (hspace _), tokens?_space,
    tokens?_concepts hconcept habout]
  rfl

theorem tokens?_firstAbout (hconcept : declared.Stands concept conceptName)
    (habout : declared.Stands about aboutName) :
    tokens? ("(" ++ ("./" ++ concept ++ "[@" ++ about ++ "]") ++ ")[1]/@" ++ about).toList =
      some (.mark '(' :: declared.conceptTokens conceptName aboutName ++
        [.mark ')', .mark '[', .number "1", .mark ']', .mark '/', .mark '@',
          declared.token aboutName]) := by
  have htext : ("(" ++ ("./" ++ concept ++ "[@" ++ about ++ "]") ++ ")[1]/@" ++ about).toList =
      '(' :: (("./" ++ concept ++ "[@" ++ about ++ "]").toList ++
        ')' :: '[' :: '1' :: ']' :: '/' :: '@' :: about.toList) := by
    rw [String.toList_append, String.toList_append, String.toList_append, List.append_assoc,
      List.append_assoc]
    rfl
  rw [htext, tokens?_mark (by decide), tokens?_concepts_append hconcept habout,
    tokens?_mark (by decide), tokens?_mark (by decide), tokens?_one (by simp),
    tokens?_mark (by decide), tokens?_mark (by decide), tokens?_mark (by decide),
    tokens?_written habout]
  rfl

end Declarations

end Concordance
