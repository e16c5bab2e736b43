import WaitLocalAgent.Model.TemplateGallery
import WaitLocalAgent.Model.WorkflowDesigner

/-! # The template gallery with its texts

The calls on the gallery as they read and write the texts of its columns: the redactor, the JSON of
designs and snapshots, and `normalize_workflow_design` are those of the store. -/

namespace WaitLocalAgent.TemplateDesigns

open Foundation Redaction
open Shelves (ShelfError galleryKind galleryEntryFromRow)

abbrev Fields := List (String × JsonValue)

structure Library extends WorkflowDesigner.Library where
  floats : JsonValue.FloatRepr

abbrev GalleryContent := Shelves.GalleryContent String

abbrev TemplateGalleryEntry := Shelves.TemplateGalleryEntry String String

abbrev TemplateGalleryRevision := Shelves.TemplateGalleryRevision String

abbrev columns := Shelves.galleryColumns String String String

abbrev Gallery := Shelves.Gallery String String String

abbrev GalleryUpdate := Shelves.GalleryUpdate Fields

def designJson (lib : Library) (design : WorkflowDesigner.WorkflowDesign) : String :=
  jsonDumpsValue lib.words (.object design.payload)

def workflowDefinitionJson (lib : Library) : Option Fields → Except ShelfError String
  | none => .ok "\x7b\x7d"
  | some definition =>
      match WorkflowDesigner.normalizeWorkflowDesign lib.toLibrary (.object definition) with
      | .ok design => .ok (designJson lib design)
      | .error error => .error (.valueError error.message)

/-- `_template_gallery_definition_json`, before it is dumped. -/
def contentSnapshot (lib : Library) (content : GalleryContent) : Fields :=
  [("name", .text content.name), ("description", .text content.description),
    ("instructions", .text content.instructions), ("enabled", .bool content.enabled),
    ("definition", .object (jsonObject lib.floats.repr content.definitionJson))]

def templateGalleryDefinitionJson (lib : Library) (content : GalleryContent) : String :=
  jsonDumpsValue lib.words (.object (contentSnapshot lib content))

def galleryStringOrNone : JsonValue → Option String
  | .text s => some s
  | _ => none

def boolOrNone : JsonValue → Option Bool
  | .bool b => some b
  | _ => none

def safeWorkflowDefinition : JsonValue → Option Fields
  | .object fields =>
      if WorkflowDesigner.designArrays.isFormat (JsonValue.get fields "format") then some fields
      else none
  | _ => none

/-- What `restore_template_gallery_revision` reads of a revision. -/
def restoringUpdate (lib : Library) (definitionJson : String) : GalleryUpdate :=
  let definition := jsonObject lib.floats.repr definitionJson
  { name := galleryStringOrNone (JsonValue.get definition "name")
    description := galleryStringOrNone (JsonValue.get definition "description")
    instructions := galleryStringOrNone (JsonValue.get definition "instructions")
    enabled := boolOrNone (JsonValue.get definition "enabled")
    definition := safeWorkflowDefinition (JsonValue.get definition "definition") }

def Library.format (lib : Library) : Shelves.GalleryFormat Fields String String String where
  redactText := redactText lib.words
  workflowDefinitionJson := workflowDefinitionJson lib
  previewFieldsJson fields := jsonDumpsValue lib.words (.array (fields.map .text))
  templateGalleryDefinitionJson := templateGalleryDefinitionJson lib
  redactDefinitionJson := redactJsonText lib.words lib.floats.repr
  redactPreviewFieldsJson := redactJsonText lib.words lib.floats.repr
  redactRevisionJson := redactJsonText lib.words lib.floats.repr
  restoring := restoringUpdate lib

/-- The floats of a definition are given by their `repr`. -/
def Exact (lib : Library) (definition : Option Fields) : Prop :=
  ∀ fields ∈ definition, (JsonValue.object fields).exact lib.floats = true

abbrev GalleryOperation (lib : Library) :=
  { operation : Shelves.GalleryOperation Fields // Exact lib operation.definition }

def gallery (lib : Library) : Machine Gallery (GalleryOperation lib) where
  init := .empty
  step s operation := ((galleryKind lib.format).exec (operation.1.program lib.format) s).2

def entryAfter {lib : Library} (calls : List (GalleryOperation lib)) (id : String) :
    Option TemplateGalleryEntry :=
  (((gallery lib).run calls).entries.find? id).map (galleryEntryFromRow lib.format)

end WaitLocalAgent.TemplateDesigns
