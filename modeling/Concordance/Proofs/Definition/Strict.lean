import Concordance.Batch.Load
import Concordance.Proofs.Name.Registry
import Mathlib.Data.List.Forall2
import Mathlib.Data.List.Nodup

/-!
# Nothing that is written is passed over

A text that is read as a definition holds nothing but the definition.  In every table that stands
for a record each key is that of a field, no key comes twice, the value under it is the one that the
record has, and a field without a key has its default.  A record may also be written as the sequence
of its values, where the fields at the end may be missing if they have defaults.

This is shown once for records of all kinds.  A record is filled field by field, and entering one
field leaves the others as they are; so what was entered is there in the end, and what was not
entered is as it was to begin with.
-/

namespace Concordance

open Text (Extent)

/-! ## What readings give -/

/-- A field of a record: its name, whether it may be missing, when the record has there what it has
if the field is missing, and which readings give the value that the record has there. -/
structure Slot (σ : Type) where
  name : String
  isOptional : Bool
  IsBlank : σ → Prop
  Gives : Reading → σ → Prop

/-- The readings give the values of the fields one after another.  Fields at the end may be missing
if they are optional; readings behind the last field are let pass only if `surplus` is set. -/
inductive GivesItems {σ : Type} (surplus : Bool) (ending : Ending) (record : σ) :
    List (Slot σ) → List Reading → Prop
  | nil {behind : Extent} (hclosed : ending = .closed behind) :
      GivesItems surplus ending record [] []
  | surplus (item : Reading) (items : List Reading) (hsurplus : surplus = true) :
      GivesItems surplus ending record [] (item :: items)
  | given {slot : Slot σ} {slots : List (Slot σ)} {item : Reading} {items : List Reading}
      (hgives : slot.Gives item record) (hrest : GivesItems surplus ending record slots items) :
      GivesItems surplus ending record (slot :: slots) (item :: items)
  | missing {slot : Slot σ} {slots : List (Slot σ)} (hoptional : slot.isOptional = true)
      (hblank : slot.IsBlank record) (hrest : GivesItems surplus ending record slots []) :
      GivesItems surplus ending record (slot :: slots) []

/-- The reading gives the record: it is a whole table in which each key is that of a field and comes
once, with the value that the record has there, and fields without a key are optional and blank; or
it is a sequence of the values. -/
inductive GivesRecord {σ : Type} (slots : List (Slot σ)) (surplus : Bool) (record : σ) :
    Reading → Prop
  | table {extent behind : Extent} {entries : List (String × Extent × Reading)}
      (hknown : ∀ entry ∈ entries, ∃ slot ∈ slots, slot.name = entry.1 ∧
        slot.Gives entry.2.2 record)
      (honce : (entries.map Prod.fst).Nodup)
      (hmissing : ∀ slot ∈ slots, slot.name ∉ entries.map Prod.fst →
        slot.isOptional = true ∧ slot.IsBlank record) :
      GivesRecord slots surplus record (.table extent entries (.closed behind))
  | sequence {extent : Extent} {items : List Reading} {ending : Ending}
      (hitems : GivesItems surplus ending record slots items) :
      GivesRecord slots surplus record (.sequence extent items ending)

/-- The reading is a string. -/
inductive GivesText (text : String) : Reading → Prop
  | string (extent : Extent) : GivesText text (.string text extent)

/-- The reading is a string, or a null for a text that is missing. -/
inductive GivesOptional : Option String → Reading → Prop
  | null (extent : Extent) : GivesOptional none (.null extent)
  | string (text : String) (extent : Extent) : GivesOptional (some text) (.string text extent)

/-- The reading is a boolean. -/
inductive GivesBoolean (value : Bool) : Reading → Prop
  | boolean (extent : Extent) : GivesBoolean value (.boolean value extent)

/-- The reading is a whole sequence that gives the items one by one. -/
inductive GivesAll {α : Type} (gives : Reading → α → Prop) (items : List α) : Reading → Prop
  | sequence {extent behind : Extent} {readings : List Reading}
      (hitems : List.Forall₂ gives readings items) :
      GivesAll gives items (.sequence extent readings (.closed behind))

/-- The reading is a whole table of strings, and a key is bound to the last string under it. -/
inductive GivesBindings (bindings : Bindings) : Reading → Prop
  | table {extent behind : Extent} {entries : List (String × Extent × Reading)}
      (hstrings : ∀ entry ∈ entries, ∃ text, GivesText text entry.2.2)
      (hlast : ∀ label uri, (label, uri) ∈ bindings.toList ↔
        ∃ last, entries.reverse.lookup label = some last ∧ GivesText uri last.2) :
      GivesBindings bindings (.table extent entries (.closed behind))

def AttributeDefinition.slots : List (Slot AttributeDefinition) :=
  [⟨"from", false, fun _ => True, fun reading a => GivesText a.source reading⟩,
    ⟨"to", false, fun _ => True, fun reading a => GivesText a.target reading⟩]

def RuleDefinition.slots (surplus : Bool) : List (Slot RuleDefinition) :=
  [⟨"from", false, fun _ => True, fun reading rule => GivesText rule.source reading⟩,
    ⟨"to", false, fun _ => True, fun reading rule => GivesText rule.target reading⟩,
    ⟨"include_value", true, fun rule => rule.keepsText = false,
      fun reading rule => GivesBoolean rule.keepsText reading⟩,
    ⟨"attributes", true, fun rule => rule.attributes = [], fun reading rule =>
      GivesAll (fun reading a => GivesRecord AttributeDefinition.slots surplus a reading)
        rule.attributes reading⟩]

namespace Definition

/-- The fields of the section that holds the rules. -/
def rulesSlots (surplus : Bool) : List (Slot Definition) :=
  [⟨"document_id", true, fun definition => definition.documentId = none,
      fun reading definition => GivesOptional definition.documentId reading⟩,
    ⟨"parent", false, fun _ => True, fun reading definition =>
      GivesRecord (RuleDefinition.slots surplus) surplus definition.parent reading⟩,
    ⟨"children", true, fun definition => definition.children = [], fun reading definition =>
      GivesAll (fun reading rule => GivesRecord (RuleDefinition.slots surplus) surplus rule reading)
        definition.children reading⟩]

/-- The fields of the section on the output. -/
def outputSlots : List (Slot Definition) :=
  [⟨"record_container", true, fun definition => definition.container = none,
    fun reading definition => GivesOptional definition.container reading⟩]

/-- The fields of a whole definition. -/
def slots (surplus : Bool) : List (Slot Definition) :=
  [⟨"namespaces", true, fun definition => definition.bindings = .empty,
      fun reading definition => GivesBindings definition.bindings reading⟩,
    ⟨"mapping", false, fun definition => definition.documentId = none ∧ definition.children = [],
      fun reading definition => GivesRecord (rulesSlots surplus) surplus definition reading⟩,
    ⟨"output", true, fun definition => definition.container = none,
      fun reading definition => GivesRecord outputSlots surplus definition reading⟩]

end Definition

/-! ## Records of all kinds -/

theorem closedWith_eq_ok_iff {α : Type} {value result : α} {ending : Ending} :
    Reading.closedWith value ending = .ok result ↔
      value = result ∧ ∃ behind, ending = .closed behind := by
  cases ending <;> simp [Reading.closedWith]

section Records

variable {σ : Type} {shape : Shape σ} {slots : List (Slot σ)} {surplus : Bool}

/-- What the record has in a field is the same, as far as readings tell. -/
structure Slot.Follows (slot : Slot σ) (record after : σ) : Prop where
  blank : slot.IsBlank record → slot.IsBlank after
  gives : ∀ reading, slot.Gives reading record → slot.Gives reading after

theorem Slot.Follows.refl (slot : Slot σ) (record : σ) : slot.Follows record record :=
  ⟨id, fun _ => id⟩

theorem Slot.Follows.trans {slot : Slot σ} {record middle after : σ}
    (h : slot.Follows record middle) (h' : slot.Follows middle after) :
    slot.Follows record after :=
  ⟨h'.blank ∘ h.blank, fun reading hgives => h'.gives reading (h.gives reading hgives)⟩

/-- The fields of a shape.  What is entered into a blank field is there then, and the other fields
stay as they are. -/
structure Shape.Serves (shape : Shape σ) (slots : List (Slot σ)) : Prop where
  fields : shape.fields = slots.map fun slot => (slot.name, slot.isOptional)
  distinct : (slots.map Slot.name).Nodup
  gives : ∀ slot ∈ slots, ∀ value record after, slot.IsBlank record →
    shape.enter slot.name value record = .ok after → slot.Gives value after
  follows : ∀ slot ∈ slots, ∀ other ∈ slots, other.name ≠ slot.name → ∀ value record after,
    shape.enter slot.name value record = .ok after → other.Follows record after

/-- What has become of a record when the entries of a table were entered, beside the names that were
seen before. -/
structure Entered (slots : List (Slot σ)) (seen : List String)
    (entries : List (String × Extent × Reading)) (record : σ) (seen' : List String)
    (after : σ) : Prop where
  known : ∀ entry ∈ entries, ∃ slot ∈ slots, slot.name = entry.1 ∧ slot.Gives entry.2.2 after
  fresh : ∀ entry ∈ entries, entry.1 ∉ seen
  once : (entries.map Prod.fst).Nodup
  seen_iff : ∀ name, name ∈ seen' ↔ name ∈ entries.map Prod.fst ∨ name ∈ seen
  follows : ∀ slot ∈ slots, slot.name ∉ entries.map Prod.fst → slot.Follows record after

namespace Shape.Serves

variable (h : shape.Serves slots)

include h

theorem enterEntries {entries : List (String × Extent × Reading)} {seen seen' : List String}
    {record after : σ} (hblank : ∀ slot ∈ slots, slot.name ∉ seen → slot.IsBlank record)
    (hrun : shape.enterEntries seen entries record = .ok (seen', after)) :
    Entered slots seen entries record seen' after := by
  induction entries generalizing seen record with
  | nil =>
    cases hrun
    exact ⟨by simp, by simp, by simp, by simp, fun slot _ _ => .refl slot _⟩
  | cons entry rest ih =>
    obtain ⟨key, extent, value⟩ := entry
    rw [Shape.enterEntries] at hrun
    split at hrun
    · next hknown =>
      split at hrun
      · cases hrun
      · next hfresh =>
        obtain ⟨next, hnext, hrest⟩ := bind_eq_ok_iff.1 hrun
        have hfresh : key ∉ seen := by simpa using hfresh
        obtain ⟨slot, hslot, rfl⟩ : ∃ slot ∈ slots, slot.name = key := by
          simpa [h.fields] using hknown
        have hblank' : ∀ other ∈ slots, other.name ∉ slot.name :: seen → other.IsBlank next := by
          intro other hother hname
          rw [List.mem_cons, not_or] at hname
          exact (h.follows slot hslot other hother hname.1 value record next hnext).blank
            (hblank other hother hname.2)
        have hentered := ih hblank' hrest
        have hlater : slot.name ∉ rest.map Prod.fst := by
          intro hmem
          obtain ⟨entry, hentry, hname⟩ := List.mem_map.1 hmem
          exact hentered.fresh entry hentry (hname ▸ List.mem_cons_self)
        refine ⟨?_, ?_, ?_, ?_, ?_⟩
        · refine List.forall_mem_cons.2 ⟨⟨slot, hslot, rfl, ?_⟩, hentered.known⟩
          -- what is entered now is still there when the rest is entered
          exact (hentered.follows slot hslot hlater).gives value
            (h.gives slot hslot value record next (hblank slot hslot hfresh) hnext)
        · refine List.forall_mem_cons.2 ⟨hfresh, fun entry hentry hmem => ?_⟩
          exact hentered.fresh entry hentry (List.mem_cons_of_mem _ hmem)
        · exact List.nodup_cons.2 ⟨hlater, hentered.once⟩
        · intro name
          rw [hentered.seen_iff, List.map_cons, List.mem_cons, List.mem_cons]
          tauto
        · intro other hother hname
          rw [List.map_cons, List.mem_cons, not_or] at hname
          exact (h.follows slot hslot other hother hname.1 value record next hnext).trans
            (hentered.follows other hother hname.2)
    · cases hrun

/-- The items are entered into the fields that are left, and the others stay as they are. -/
theorem enterItems {ending : Ending} {index : Nat} {left : List (Slot σ)} {items : List Reading}
    {record after : σ} (hsub : left ⊆ slots) (honce : (left.map Slot.name).Nodup)
    (hblank : ∀ slot ∈ left, slot.IsBlank record)
    (hrun : shape.enterItems surplus ending index
      (left.map fun slot => (slot.name, slot.isOptional)) items record = .ok after) :
    GivesItems surplus ending after left items ∧
      ∀ slot ∈ slots, slot.name ∉ left.map Slot.name → slot.Follows record after := by
  induction left generalizing index items record with
  | nil =>
    cases items with
    | nil =>
      rw [List.map_nil, Shape.enterItems] at hrun
      obtain ⟨rfl, behind, rfl⟩ := closedWith_eq_ok_iff.1 hrun
      exact ⟨.nil rfl, fun slot _ _ => .refl slot _⟩
    | cons item items =>
      rw [List.map_nil, Shape.enterItems] at hrun
      split at hrun
      · next hsurplus =>
        cases hrun
        exact ⟨.surplus item items hsurplus, fun slot _ _ => .refl slot _⟩
      · cases hrun
  | cons slot left ih =>
    rw [List.map_cons, List.nodup_cons] at honce
    have hslot : slot ∈ slots := hsub List.mem_cons_self
    have hleft : left ⊆ slots := List.subset_of_cons_subset hsub
    cases items with
    | nil =>
      cases ending with
      | broken => cases hrun
      | closed behind =>
        rw [List.map_cons, Shape.enterItems] at hrun
        split at hrun
        · next hoptional =>
          obtain ⟨hgives, hfollows⟩ := ih hleft honce.2
            (fun other hother => hblank other (List.mem_cons_of_mem _ hother)) hrun
          refine ⟨.missing hoptional ?_ hgives, fun other hother hname => ?_⟩
          · exact (hfollows slot hslot honce.1).blank (hblank slot List.mem_cons_self)
          · exact hfollows other hother fun hmem => hname (List.mem_cons_of_mem _ hmem)
        · cases hrun
    | cons item items =>
      rw [List.map_cons, Shape.enterItems] at hrun
      obtain ⟨next, hnext, hrest⟩ := bind_eq_ok_iff.1 hrun
      have hkept : ∀ other ∈ slots, other.name ≠ slot.name → other.Follows record next :=
        fun other hother hname => h.follows slot hslot other hother hname item record next hnext
      obtain ⟨hgives, hfollows⟩ := ih hleft honce.2 (fun other hother =>
        (hkept other (hleft hother) fun hname =>
          honce.1 (hname ▸ List.mem_map_of_mem hother)).blank
            (hblank other (List.mem_cons_of_mem _ hother))) hrest
      refine ⟨.given ?_ hgives, fun other hother hname => ?_⟩
      · exact (hfollows slot hslot honce.1).gives item
          (h.gives slot hslot item record next (hblank slot List.mem_cons_self) hnext)
      · rw [List.map_cons, List.mem_cons, not_or] at hname
        exact (hkept other hother hname.1).trans (hfollows other hother hname.2)

/-- A reading that a record is read from gives the record. -/
theorem read {start after : σ} (hstart : ∀ slot ∈ slots, slot.IsBlank start) {reading : Reading}
    (hrun : shape.read surplus start reading = .ok after) :
    GivesRecord slots surplus after reading := by
  cases reading with
  | table extent entries ending =>
    rw [Shape.read] at hrun
    obtain ⟨⟨seen, record⟩, hentries, hrun⟩ := bind_eq_ok_iff.1 hrun
    have hentered := h.enterEntries (fun slot hslot _ => hstart slot hslot) hentries
    cases ending with
    | broken => cases hrun
    | closed behind =>
      dsimp only at hrun
      split at hrun
      · cases hrun
      · next hnone =>
        cases hrun
        refine .table hentered.known hentered.once fun slot hslot hname => ⟨?_, ?_⟩
        · by_contra hrequired
          have hseen : slot.name ∉ seen := by
            rw [hentered.seen_iff]
            simpa using hname
          have hfield : (slot.name, slot.isOptional) ∈ shape.fields := by
            rw [h.fields]
            exact List.mem_map_of_mem hslot
          have hnot := List.find?_eq_none.1 hnone _ hfield
          simp [hseen, hrequired] at hnot
        · exact (hentered.follows slot hslot hname).blank (hstart slot hslot)
  | sequence extent items ending =>
    rw [Shape.read, h.fields] at hrun
    exact .sequence (h.enterItems (List.Subset.refl _) h.distinct hstart hrun).1
  | _ => cases hrun

end Shape.Serves

/-- What readings give of a record they give of one that is the same in the fields. -/
theorem GivesItems.follows {ending : Ending} {record after : σ} {items : List Reading}
    (hfollows : ∀ slot ∈ slots, slot.Follows record after)
    (h : GivesItems surplus ending record slots items) :
    GivesItems surplus ending after slots items := by
  induction h with
  | nil hclosed => exact .nil hclosed
  | surplus item items hsurplus => exact .surplus item items hsurplus
  | given hgives _ ih =>
    obtain ⟨hslot, hfollows⟩ := List.forall_mem_cons.1 hfollows
    exact .given (hslot.gives _ hgives) (ih hfollows)
  | missing hoptional hblank _ ih =>
    obtain ⟨hslot, hfollows⟩ := List.forall_mem_cons.1 hfollows
    exact .missing hoptional (hslot.blank hblank) (ih hfollows)

theorem GivesRecord.follows {record after : σ} {reading : Reading}
    (hfollows : ∀ slot ∈ slots, slot.Follows record after)
    (h : GivesRecord slots surplus record reading) : GivesRecord slots surplus after reading := by
  cases h with
  | table hknown honce hmissing =>
    refine .table (fun entry hentry => ?_) honce fun slot hslot hname => ?_
    · obtain ⟨slot, hslot, hname, hgives⟩ := hknown entry hentry
      exact ⟨slot, hslot, hname, (hfollows slot hslot).gives _ hgives⟩
    · exact (hmissing slot hslot hname).imp_right (hfollows slot hslot).blank
  | sequence hitems => exact .sequence (hitems.follows hfollows)

/-! ### What no field touches -/

namespace Shape

variable {β : Type} {part : σ → β}
  (henter : ∀ name value record after, shape.enter name value record = .ok after →
    part after = part record)

include henter

theorem enterEntries_keeps {entries : List (String × Extent × Reading)} {seen seen' : List String}
    {record after : σ} (hrun : shape.enterEntries seen entries record = .ok (seen', after)) :
    part after = part record := by
  induction entries generalizing seen record with
  | nil =>
    cases hrun
    rfl
  | cons entry rest ih =>
    rw [enterEntries] at hrun
    split at hrun
    · split at hrun
      · cases hrun
      · obtain ⟨next, hnext, hrest⟩ := bind_eq_ok_iff.1 hrun
        exact (ih hrest).trans (henter _ _ _ _ hnext)
    · cases hrun

theorem enterItems_keeps {ending : Ending} {index : Nat} {fields : List (String × Bool)}
    {items : List Reading} {record after : σ}
    (hrun : shape.enterItems surplus ending index fields items record = .ok after) :
    part after = part record := by
  induction fields generalizing index items record with
  | nil =>
    cases items with
    | nil =>
      rw [enterItems, closedWith_eq_ok_iff] at hrun
      rw [hrun.1]
    | cons item items =>
      rw [enterItems] at hrun
      split at hrun
      · cases hrun
        rfl
      · cases hrun
  | cons field fields ih =>
    cases items with
    | nil =>
      cases ending with
      | broken => cases hrun
      | closed behind =>
        rw [enterItems] at hrun
        split at hrun
        · exact ih hrun
        · cases hrun
    | cons item items =>
      rw [enterItems] at hrun
      obtain ⟨next, hnext, hrest⟩ := bind_eq_ok_iff.1 hrun
      exact (ih hrest).trans (henter _ _ _ _ hnext)

variable (part) in
theorem read_keeps {start after : σ} {reading : Reading}
    (hrun : shape.read surplus start reading = .ok after) : part after = part start := by
  cases reading with
  | table extent entries ending =>
    rw [read] at hrun
    obtain ⟨⟨seen, record⟩, hentries, hrun⟩ := bind_eq_ok_iff.1 hrun
    rw [← enterEntries_keeps henter hentries]
    cases ending with
    | broken => cases hrun
    | closed behind =>
      dsimp only at hrun
      split at hrun
      · cases hrun
      · cases hrun
        rfl
  | sequence extent items ending =>
    rw [read] at hrun
    exact enterItems_keeps henter hrun
  | _ => cases hrun

end Shape

end Records

/-! ## Texts, booleans and sequences -/

section Scalars

variable {reading : Reading}

theorem givesText_iff {text : String} : GivesText text reading ↔ reading.asString = .ok text := by
  constructor
  · rintro ⟨extent⟩
    rfl
  · intro h
    cases reading with
    | string value extent =>
      cases h
      exact .string extent
    | _ => cases h

theorem givesOptional_of_asOptionalString {text : Option String}
    (h : reading.asOptionalString = .ok text) : GivesOptional text reading := by
  cases reading with
  | null extent =>
    cases h
    exact .null extent
  | string value extent =>
    cases h
    exact .string value extent
  | _ => cases h

theorem givesBoolean_of_asBool {value : Bool} (h : reading.asBool = .ok value) :
    GivesBoolean value reading := by
  cases reading with
  | boolean value extent =>
    cases h
    exact .boolean extent
  | _ => cases h

theorem givesAll_of_asList {α : Type} {item : Reading → Except ShapeError α}
    {gives : Reading → α → Prop} (hitem : ∀ reading a, item reading = .ok a → gives reading a)
    {items : List α} (h : reading.asList item = .ok items) : GivesAll gives items reading := by
  cases reading with
  | sequence extent readings ending =>
    obtain ⟨values, hvalues, hclosed⟩ := bind_eq_ok_iff.1 h
    obtain ⟨rfl, behind, rfl⟩ := closedWith_eq_ok_iff.1 hclosed
    exact .sequence ((mapM_eq_ok_iff.1 hvalues).imp hitem)
  | _ => cases h

end Scalars

/-! ## Bindings -/

namespace Bindings

theorem mem_insertOver_iff {bindings : Bindings} {key text label uri : String} :
    (label, uri) ∈ (bindings.insertOver (key, text)).toList ↔
      if key = label then text = uri else (label, uri) ∈ bindings.toList := by
  have hfind (bindings : Bindings) : (label, uri) ∈ bindings.toList ↔
      bindings.toList.find? (·.1 == label) = some (label, uri) := by
    rw [find?_eq_some_iff_mem (isKey_fst label) bindings.ascending]
    simp
  have hinsert : (bindings.insertOver (key, text)).toList.find? (·.1 == label) =
      if key == label then some (key, text) else bindings.toList.find? (·.1 == label) :=
    find?_insertOver (isKey_fst label) (key, text) bindings.toList
  rw [hfind, hfind, hinsert]
  by_cases heq : key = label <;> simp [heq]

/-- The strings of a table are entered one by one, and the last under a key counts. -/
theorem of_foldlM {entries : List (String × Extent × Reading)} {bindings after : Bindings}
    (h : entries.foldlM (fun (bindings : Bindings) entry => do
      let value ← entry.2.2.asString
      pure (bindings.insertOver (entry.1, value))) bindings =
        (.ok after : Except ShapeError Bindings)) :
    (∀ entry ∈ entries, ∃ text, GivesText text entry.2.2) ∧
      ∀ label uri, (label, uri) ∈ after.toList ↔
        match entries.reverse.lookup label with
        | some last => GivesText uri last.2
        | none => (label, uri) ∈ bindings.toList := by
  induction entries generalizing bindings with
  | nil =>
    cases h
    exact ⟨by simp, fun label uri => Iff.rfl⟩
  | cons entry rest ih =>
    obtain ⟨key, extent, reading⟩ := entry
    rw [List.foldlM_cons] at h
    obtain ⟨next, hnext, hrest⟩ := bind_eq_ok_iff.1 h
    obtain ⟨text, htext, hinsert⟩ := bind_eq_ok_iff.1 hnext
    cases hinsert
    obtain ⟨hstrings, hlast⟩ := ih hrest
    refine ⟨List.forall_mem_cons.2 ⟨⟨text, givesText_iff.2 htext⟩, hstrings⟩, fun label uri => ?_⟩
    rw [hlast, List.reverse_cons, List.lookup_append]
    cases rest.reverse.lookup label with
    | some last => simp
    | none =>
      rw [Option.none_or, mem_insertOver_iff]
      by_cases heq : key = label
      · subst heq
        have hsame : GivesText uri reading ↔ text = uri := by
          rw [givesText_iff, htext, Except.ok.injEq]
        simp [hsame]
      · have hother : (label == key) = false := by simpa using Ne.symm heq
        simp [List.lookup_cons, heq, hother]

end Bindings

theorem givesBindings_of_asBindings {reading : Reading} {bindings : Bindings}
    (h : reading.asBindings = .ok bindings) : GivesBindings bindings reading := by
  cases reading with
  | table extent entries ending =>
    obtain ⟨entered, hentered, hclosed⟩ := bind_eq_ok_iff.1 h
    obtain ⟨rfl, behind, rfl⟩ := closedWith_eq_ok_iff.1 hclosed
    obtain ⟨hstrings, hlast⟩ := Bindings.of_foldlM hentered
    refine .table hstrings fun label uri => ?_
    rw [hlast]
    cases entries.reverse.lookup label with
    | some last => simp
    | none => simp [Ascending.empty]
  | _ => cases h

/-! ## Attributes and rules -/

theorem AttributeDefinition.serves : shape.Serves slots where
  fields := rfl
  distinct := by decide
  gives slot hslot value record after hblank henter := by
    simp only [slots, List.mem_cons, List.not_mem_nil, or_false] at hslot
    rcases hslot with rfl | rfl
    all_goals
      obtain ⟨text, htext, hafter⟩ := bind_eq_ok_iff.1 henter
      cases hafter
      exact givesText_iff.2 htext
  follows slot hslot other hother hname value record after henter := by
    simp only [slots, List.mem_cons, List.not_mem_nil, or_false] at hslot hother
    rcases hslot with rfl | rfl
    all_goals
      obtain ⟨text, -, hafter⟩ := bind_eq_ok_iff.1 henter
      cases hafter
      rcases hother with rfl | rfl <;> first | exact absurd rfl hname | exact ⟨id, fun _ => id⟩

theorem RuleDefinition.serves (surplus : Bool) : (shape surplus).Serves (slots surplus) where
  fields := rfl
  distinct := by simp [slots]
  gives slot hslot value record after hblank henter := by
    simp only [slots, List.mem_cons, List.not_mem_nil, or_false] at hslot
    rcases hslot with rfl | rfl | rfl | rfl
    all_goals
      obtain ⟨entered, hentered, hafter⟩ := bind_eq_ok_iff.1 henter
      cases hafter
    · exact givesText_iff.2 hentered
    · exact givesText_iff.2 hentered
    · exact givesBoolean_of_asBool hentered
    · refine givesAll_of_asList (fun reading a hread => ?_) hentered
      exact AttributeDefinition.serves.read (by simp [AttributeDefinition.slots]) hread
  follows slot hslot other hother hname value record after henter := by
    simp only [slots, List.mem_cons, List.not_mem_nil, or_false] at hslot hother
    rcases hslot with rfl | rfl | rfl | rfl
    all_goals
      obtain ⟨entered, -, hafter⟩ := bind_eq_ok_iff.1 henter
      cases hafter
      rcases hother with rfl | rfl | rfl | rfl <;>
        first | exact absurd rfl hname | exact ⟨id, fun _ => id⟩

/-- A rule that is read is the one that is written. -/
theorem RuleDefinition.gives_of_ofReading {surplus : Bool} {reading : Reading}
    {rule : RuleDefinition} (h : ofReading surplus reading = .ok rule) :
    GivesRecord (slots surplus) surplus rule reading :=
  (serves surplus).read (by simp [slots]) h

/-! ## Definitions -/

namespace Definition

section Sections

variable {record after : Definition} {surplus : Bool}

theorem rulesServes (surplus : Bool) : (rulesShape surplus).Serves (rulesSlots surplus) where
  fields := rfl
  distinct := by simp [rulesSlots]
  gives slot hslot value record after hblank henter := by
    simp only [rulesSlots, List.mem_cons, List.not_mem_nil, or_false] at hslot
    rcases hslot with rfl | rfl | rfl
    all_goals
      obtain ⟨entered, hentered, hafter⟩ := bind_eq_ok_iff.1 henter
      cases hafter
    · exact givesOptional_of_asOptionalString hentered
    · exact RuleDefinition.gives_of_ofReading hentered
    · exact givesAll_of_asList (fun _ _ => RuleDefinition.gives_of_ofReading) hentered
  follows slot hslot other hother hname value record after henter := by
    simp only [rulesSlots, List.mem_cons, List.not_mem_nil, or_false] at hslot hother
    rcases hslot with rfl | rfl | rfl
    all_goals
      obtain ⟨entered, -, hafter⟩ := bind_eq_ok_iff.1 henter
      cases hafter
      rcases hother with rfl | rfl | rfl <;>
        first | exact absurd rfl hname | exact ⟨id, fun _ => id⟩

theorem outputServes : outputShape.Serves outputSlots where
  fields := rfl
  distinct := by decide
  gives slot hslot value record after hblank henter := by
    obtain rfl := List.mem_singleton.1 hslot
    obtain ⟨entered, hentered, hafter⟩ := bind_eq_ok_iff.1 henter
    cases hafter
    exact givesOptional_of_asOptionalString hentered
  follows slot hslot other hother hname value record after henter := by
    obtain rfl := List.mem_singleton.1 hslot
    obtain rfl := List.mem_singleton.1 hother
    exact absurd rfl hname

/-- The section that holds the rules has nothing to do with the namespaces and the output. -/
theorem read_rules_keeps {reading : Reading}
    (hrun : (rulesShape surplus).read surplus record reading = .ok after) :
    (after.bindings, after.container) = (record.bindings, record.container) := by
  refine Shape.read_keeps (fun definition => (definition.bindings, definition.container))
    (fun name value record after henter => ?_) hrun
  simp only [rulesShape] at henter
  split at henter
  all_goals
    obtain ⟨entered, -, hafter⟩ := bind_eq_ok_iff.1 henter
    cases hafter
    rfl

/-- The section on the output has to do with the record container only. -/
theorem read_output_keeps {reading : Reading}
    (hrun : outputShape.read surplus record reading = .ok after) :
    { after with container := none } = { record with container := none } := by
  refine Shape.read_keeps (fun definition => { definition with container := none })
    (fun name value record after henter => ?_) hrun
  obtain ⟨entered, -, hafter⟩ := bind_eq_ok_iff.1 henter
  cases hafter
  rfl

/-- The section that holds the rules gives the same of definitions that have the same rules. -/
theorem follows_rules (hid : after.documentId = record.documentId)
    (hparent : after.parent = record.parent) (hchildren : after.children = record.children) :
    ∀ slot ∈ rulesSlots surplus, slot.Follows record after := by
  intro slot hslot
  simp only [rulesSlots, List.mem_cons, List.not_mem_nil, or_false] at hslot
  rcases hslot with rfl | rfl | rfl
  · exact ⟨hid.trans, by simp [hid]⟩
  · exact ⟨id, by simp [hparent]⟩
  · exact ⟨hchildren.trans, by simp [hchildren]⟩

theorem follows_output (hcontainer : after.container = record.container) :
    ∀ slot ∈ outputSlots, slot.Follows record after := by
  intro slot hslot
  obtain rfl := List.mem_singleton.1 hslot
  exact ⟨hcontainer.trans, by simp [hcontainer]⟩

/-- What a field of a definition has depends on the parts of the definition that it fills. -/
theorem follows_of_eq {slot : Slot Definition} (hslot : slot ∈ slots surplus)
    (hbindings : slot.name = "namespaces" → after.bindings = record.bindings)
    (hrules : slot.name = "mapping" → after.documentId = record.documentId ∧
      after.parent = record.parent ∧ after.children = record.children)
    (houtput : slot.name = "output" → after.container = record.container) :
    slot.Follows record after := by
  simp only [slots, List.mem_cons, List.not_mem_nil, or_false] at hslot
  rcases hslot with rfl | rfl | rfl
  · exact ⟨(hbindings rfl).trans, by simp [hbindings rfl]⟩
  · obtain ⟨hid, hparent, hchildren⟩ := hrules rfl
    refine ⟨fun hblank => ⟨hid.trans hblank.1, hchildren.trans hblank.2⟩, fun reading hgives => ?_⟩
    exact hgives.follows (follows_rules hid hparent hchildren)
  · refine ⟨(houtput rfl).trans, fun reading hgives => ?_⟩
    exact hgives.follows (follows_output (houtput rfl))

theorem serves (surplus : Bool) : (shape surplus).Serves (slots surplus) where
  fields := rfl
  distinct := by simp [slots]
  gives slot hslot value record after hblank henter := by
    simp only [slots, List.mem_cons, List.not_mem_nil, or_false] at hslot
    rcases hslot with rfl | rfl | rfl
    · obtain ⟨entered, hentered, hafter⟩ := bind_eq_ok_iff.1 henter
      cases hafter
      exact givesBindings_of_asBindings hentered
    · exact (rulesServes surplus).read (by simpa [rulesSlots] using hblank) henter
    · exact outputServes.read (by simpa [outputSlots] using hblank) henter
  follows slot hslot other hother hname value record after henter := by
    simp only [slots, List.mem_cons, List.not_mem_nil, or_false] at hslot
    rcases hslot with rfl | rfl | rfl
    · obtain ⟨entered, -, hafter⟩ := bind_eq_ok_iff.1 henter
      cases hafter
      exact follows_of_eq hother (fun heq => absurd heq hname) (fun _ => ⟨rfl, rfl, rfl⟩)
        fun _ => rfl
    · obtain ⟨hbindings, hcontainer⟩ := Prod.mk.inj (read_rules_keeps henter)
      exact follows_of_eq hother (fun _ => hbindings) (fun heq => absurd heq hname)
        fun _ => hcontainer
    · have hkept := Definition.mk.inj (read_output_keeps henter)
      exact follows_of_eq hother (fun _ => hkept.1)
        (fun _ => ⟨hkept.2.1, hkept.2.2.1, hkept.2.2.2.1⟩) fun heq => absurd heq hname

end Sections

/-- What is read as a definition gives it. -/
theorem gives_of_ofReading {surplus : Bool} {reading : Reading} {definition : Definition}
    (h : ofReading surplus reading = .ok definition) :
    GivesRecord (slots surplus) surplus definition reading :=
  (serves surplus).read (by simp [slots]) h

end Definition

/-! ## Whole texts -/

/-- The reading is that of the whole text. -/
def Notation.Reads : Notation → String → Reading → Prop
  | .toml, text, reading => Toml.ofText? text = some reading
  | .json, text, reading => Json.ofText text = (reading, true)

/-- Whether a sequence in the notation may go on behind the last field of a record. -/
def Notation.isLenient : Notation → Bool
  | .toml => true
  | .json => false

namespace Definition

/-- Nothing that is written is passed over.  A text that is read as a definition is a table, or a
sequence, of the fields of a definition, with rules and attributes of the same kind in it, however
deep; it holds no other key and no key twice, and what the definition has is what is written there,
or the default where nothing is. -/
theorem nothing_passed_over {format : Notation} {text : String} {definition : Definition}
    (h : ofText format text = .ok definition) :
    ∃ reading, format.Reads text reading ∧
      GivesRecord (slots format.isLenient) format.isLenient definition reading := by
  cases format with
  | toml =>
    rw [ofText, ofToml] at h
    cases hread : Toml.ofText? text with
    | none => simp [hread] at h
    | some reading =>
      simp only [hread, mapError_eq_ok_iff] at h
      exact ⟨reading, hread, gives_of_ofReading h⟩
  | json =>
    rw [ofText, ofJson] at h
    rcases hread : Json.ofText text with ⟨reading, isWhole⟩
    rw [hread] at h
    obtain ⟨other, hother, hwhole⟩ := bind_eq_ok_iff.1 h
    cases isWhole with
    | false => cases hwhole
    | true =>
      cases hwhole
      exact ⟨reading, hread, gives_of_ofReading hother⟩

/-- In this text a prefix is bound twice, and the second binding counts. -/
def repeatedBinding : String :=
  "\x7b\"namespaces\": \x7b\"ex\": \"urn:a\", \"ex\": \"urn:b\"\x7d, " ++
    "\"mapping\": \x7b\"children\": [[\"ex:a\", \"ex:b\", true]], \"document_id\": null, " ++
    "\"parent\": \x7b\"to\": \"ex:d\", \"from\": \"ex:c\"\x7d\x7d\x7d"

theorem repeatedBinding_nothing_passed_over :
    ∃ definition, ofText .json repeatedBinding = .ok definition ∧
      definition.bindings.toList = [("ex", "urn:b")] ∧
      definition.children = [⟨"ex:a", "ex:b", true, []⟩] ∧
      ∃ reading, Notation.json.Reads repeatedBinding reading ∧
        GivesRecord (slots false) false definition reading := by
  have hparts : (ofText .json repeatedBinding).toOption.map
      (fun definition => (definition.bindings.toList, definition.children)) =
        some ([("ex", "urn:b")], [⟨"ex:a", "ex:b", true, []⟩]) := by
    decide +kernel
  obtain ⟨definition, hread, hparts⟩ := Option.map_eq_some_iff.1 hparts
  obtain ⟨hbindings, hchildren⟩ := Prod.mk.inj hparts
  have hread := toOption_eq_some_iff.1 hread
  exact ⟨definition, hread, hbindings, hchildren, nothing_passed_over hread⟩

end Definition

end Concordance
