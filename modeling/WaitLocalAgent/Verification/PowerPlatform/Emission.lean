import WaitLocalAgent.Model.PowerPlatform

/-! # What an emission consists of

Each list of an emission collects what the artifacts contribute to it, one after the other. Only the
entities are changed later, where the lookup of an omitted relationship is removed. -/

namespace WaitLocalAgent.PowerPlatform

open Foundation

/-- A list that every step of a fold appends to. -/
theorem foldl_collects {σ α β : Type*} {step : σ → α → σ} {field : σ → List β} {part : α → List β}
    (h : ∀ s a, field (step s a) = field s ++ part a) (s : σ) (items : List α) :
    field (items.foldl step s) = field s ++ items.flatMap part := by
  induction items generalizing s with
  | nil => simp
  | cons a items ih => simp [ih, h, List.append_assoc]

namespace PowerApp

def entities (app : PowerApp) : List Entity := app.tables.filterMap Table.entity?

def relationships (app : PowerApp) : List Relationship := app.links.filterMap Link.relationship?

/-- The lookup columns that are removed, by entity and column. -/
def removals (app : PowerApp) : List (String × String) := app.links.filterMap Link.removal?

end PowerApp

/-- What a relationship adds to `emitted_component_classes`. -/
def Link.classes (l : Link) : List String :=
  if l.relationship?.isSome then [] else ["withheld_relationship"]

namespace Artifact

def powerApp? : Artifact → Option PowerApp
  | .powerApp app => some app
  | _ => none

def entities (a : Artifact) : List Entity := (a.powerApp?.map PowerApp.entities).getD []

def designOnly : Artifact → List DesignOnly
  | .powerApp app =>
      app.tables.flatMap (Table.designOnly app.scope) ++ app.links.filterMap Link.designOnly?
  | .flow entry => [entry]
  | .connector entry => [entry]
  | .unknown _ => []

/-- What the artifact adds to `emitted_component_classes`. -/
def classes : Artifact → List String
  | .powerApp app => app.tables.flatMap Table.classes ++ app.links.flatMap Link.classes
  | .flow _ => ["modern_flow"]
  | .connector _ => ["custom_connector"]
  | .unknown _ => []

def componentClasses : Artifact → List String
  | .powerApp app => app.entities.map fun _ => "entity"
  | .flow _ => ["modern_flow"]
  | .connector _ => ["custom_connector"]
  | .unknown _ => []

end Artifact

namespace Emission

section Tables

variable (scope : Scope) (e : Emission) (t : Table)

theorem addTable_entities :
    (addTable scope e t).entities = e.entities ++ t.entity?.toList := by
  cases h : t.entity? <;> simp [addTable, h, withhold, addEntity]

theorem addTable_rootComponents : (addTable scope e t).rootComponents =
    e.rootComponents ++ t.entity?.toList.map fun entity => ⟨"1", entity.logicalName⟩ := by
  cases h : t.entity? <;> simp [addTable, h, withhold, addEntity]

theorem addTable_designOnly :
    (addTable scope e t).designOnly = e.designOnly ++ t.designOnly scope := by
  cases h : t.entity? <;> simp [addTable, h, withhold, addEntity]

theorem addTable_emittedClasses :
    (addTable scope e t).emittedClasses = e.emittedClasses ++ t.classes := by
  cases h : t.entity? <;> simp [addTable, h, withhold, addEntity]

theorem addTable_importCompleteClasses : (addTable scope e t).importCompleteClasses =
    e.importCompleteClasses ++ t.entity?.toList.map fun _ => "entity" := by
  cases h : t.entity? <;> simp [addTable, h, withhold, addEntity]

theorem addTable_artifactClasses : (addTable scope e t).artifactClasses =
    e.artifactClasses ++ t.entity?.toList.map fun _ => "entity" := by
  cases h : t.entity? <;> simp [addTable, h, withhold, addEntity]

theorem addTable_relationships : (addTable scope e t).relationships = e.relationships := by
  cases h : t.entity? <;> simp [addTable, h, withhold, addEntity]

end Tables

section Links

variable (e : Emission) (l : Link)

theorem addLink_relationships :
    (e.addLink l).relationships = e.relationships ++ l.relationship?.toList := by
  cases l <;> simp [addLink, withhold, Link.relationship?]

theorem addLink_rootComponents : (e.addLink l).rootComponents =
    e.rootComponents ++ l.relationship?.toList.map fun r => ⟨"10", r.name⟩ := by
  cases l <;> simp [addLink, withhold, Link.relationship?]

theorem addLink_designOnly :
    (e.addLink l).designOnly = e.designOnly ++ l.designOnly?.toList := by
  cases l <;> simp [addLink, withhold, Link.designOnly?]

theorem addLink_emittedClasses :
    (e.addLink l).emittedClasses = e.emittedClasses ++ l.classes := by
  cases l <;> simp [addLink, withhold, Link.classes, Link.relationship?]

@[simp] theorem addLink_importCompleteClasses :
    (e.addLink l).importCompleteClasses = e.importCompleteClasses := by
  cases l <;> rfl

@[simp] theorem addLink_artifactClasses :
    (e.addLink l).artifactClasses = e.artifactClasses := by
  cases l <;> rfl

@[simp] theorem addLink_unsupported : (e.addLink l).unsupported = e.unsupported := by
  cases l <;> rfl

end Links

theorem foldl_addLink_field {β : Type*} {field : Emission → β}
    (h : ∀ e l, field (addLink e l) = field e) (e : Emission) (links : List Link) :
    field (links.foldl addLink e) = field e := by
  induction links generalizing e with
  | nil => rfl
  | cons l links ih => rw [List.foldl_cons, ih, h]

theorem foldl_addTable_field {β : Type*} {scope : Scope} {field : Emission → β}
    (h : ∀ e t, field (addTable scope e t) = field e) (e : Emission) (tables : List Table) :
    field (tables.foldl (addTable scope) e) = field e := by
  induction tables generalizing e with
  | nil => rfl
  | cons t tables ih => rw [List.foldl_cons, ih, h]

section Artifacts

variable (e : Emission) (a : Artifact)

theorem addArtifact_designOnly :
    (e.addArtifact a).designOnly = e.designOnly ++ a.designOnly := by
  cases a with
  | powerApp app =>
      simp only [addArtifact, addPowerApp, Artifact.designOnly]
      rw [foldl_collects addLink_designOnly, foldl_collects (addTable_designOnly app.scope),
        List.append_assoc, List.filterMap_eq_flatMap_toList]
  | _ => simp [addArtifact, addDesign, withhold, Artifact.designOnly]

theorem addArtifact_emittedClasses :
    (e.addArtifact a).emittedClasses = e.emittedClasses ++ a.classes := by
  cases a with
  | powerApp app =>
      simp only [addArtifact, addPowerApp, Artifact.classes]
      rw [foldl_collects addLink_emittedClasses,
        foldl_collects (addTable_emittedClasses app.scope), List.append_assoc]
  | _ => simp [addArtifact, addDesign, withhold, Artifact.classes]

theorem addArtifact_importCompleteClasses : (e.addArtifact a).importCompleteClasses =
    e.importCompleteClasses ++ a.entities.map fun _ => "entity" := by
  cases a with
  | powerApp app =>
      simp only [addArtifact, addPowerApp, Artifact.entities, Artifact.powerApp?]
      rw [foldl_addLink_field addLink_importCompleteClasses,
        foldl_collects (addTable_importCompleteClasses app.scope)]
      simp [PowerApp.entities, List.filterMap_eq_flatMap_toList, List.map_flatMap]
  | _ => simp [addArtifact, addDesign, withhold, Artifact.entities, Artifact.powerApp?]

theorem addArtifact_artifactClasses :
    (e.addArtifact a).artifactClasses = e.artifactClasses ++ a.componentClasses := by
  cases a with
  | powerApp app =>
      simp only [addArtifact, addPowerApp, Artifact.componentClasses]
      rw [foldl_addLink_field addLink_artifactClasses,
        foldl_collects (addTable_artifactClasses app.scope)]
      simp [PowerApp.entities, List.filterMap_eq_flatMap_toList, List.map_flatMap]
  | _ => simp [addArtifact, addDesign, withhold, Artifact.componentClasses]

end Artifacts

variable (artifacts : List Artifact)

theorem ofArtifacts_designOnly :
    (ofArtifacts artifacts).designOnly = artifacts.flatMap Artifact.designOnly :=
  foldl_collects addArtifact_designOnly _ _

theorem mem_emittedClasses {c : String} : c ∈ (ofArtifacts artifacts).emittedClasses ↔
    c ∈ ["publisher", "solution_manifest"] ∨ ∃ a ∈ artifacts, c ∈ a.classes := by
  rw [ofArtifacts, foldl_collects addArtifact_emittedClasses]
  simp [empty, or_assoc]

theorem mem_importCompleteClasses {c : String} :
    c ∈ (ofArtifacts artifacts).importCompleteClasses ↔
      c ∈ ["publisher", "solution_manifest"] ∨
        c = "entity" ∧ ∃ a ∈ artifacts, a.entities ≠ [] := by
  rw [ofArtifacts, foldl_collects addArtifact_importCompleteClasses]
  simp only [empty, List.mem_append, List.mem_flatMap, List.mem_map]
  refine or_congr_right ⟨?_, ?_⟩
  · rintro ⟨a, ha, entity, hentity, rfl⟩
    exact ⟨rfl, a, ha, List.ne_nil_of_mem hentity⟩
  · rintro ⟨rfl, a, ha, hne⟩
    obtain ⟨entity, hentity⟩ := List.exists_mem_of_ne_nil _ hne
    exact ⟨a, ha, entity, hentity, rfl⟩

theorem mem_artifactClasses {c : String} : c ∈ (ofArtifacts artifacts).artifactClasses ↔
    ∃ a ∈ artifacts, c ∈ a.componentClasses := by
  rw [ofArtifacts, foldl_collects addArtifact_artifactClasses]
  simp [empty]

theorem deployable_iff :
    (ofArtifacts artifacts).deployable = true ↔ ∃ a ∈ artifacts, a.entities ≠ [] := by
  simp only [deployable, List.any_eq_true, List.contains_iff_mem, mem_artifactClasses,
    mem_importCompleteClasses]
  constructor
  · rintro ⟨c, ⟨a, ha, hc⟩, hbase | ⟨-, h⟩⟩
    · cases a <;> simp_all [Artifact.componentClasses]
    · exact h
  · intro h
    obtain ⟨a, ha, hne⟩ := h
    refine ⟨"entity", ⟨a, ha, ?_⟩, .inr ⟨rfl, a, ha, hne⟩⟩
    obtain ⟨entity, hentity⟩ := List.exists_mem_of_ne_nil _ hne
    cases a with
    | powerApp app => exact List.mem_map.mpr ⟨entity, hentity, rfl⟩
    | _ => exact absurd rfl hne

end Emission

end WaitLocalAgent.PowerPlatform
