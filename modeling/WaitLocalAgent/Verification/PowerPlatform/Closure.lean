import WaitLocalAgent.Verification.PowerPlatform.Files

/-! # Closed Dataverse schemas

Entities, lookup columns and relationships come from separate passes over the artifacts. Their names
fit together exactly if the declared tables, columns and relationships do. -/

namespace WaitLocalAgent.PowerPlatform

open Foundation

/-- The names of the emitted entities, relationships and root components fit together. -/
structure Emission.Closed (e : Emission) : Prop where
  entities_distinct : (e.entities.map Entity.logicalName).Nodup
  relationships_distinct : (e.relationships.map Relationship.name).Nodup
  primary_emitted : ∀ entity ∈ e.entities,
    ∃ a ∈ entity.attributes, a.logicalName = entity.primaryNameColumn
  connected : ∀ r ∈ e.relationships,
    (∃ entity ∈ e.entities, entity.logicalName = r.referencedEntity) ∧
      ∃ entity ∈ e.entities, entity.logicalName = r.referencingEntity ∧
        ∃ a ∈ entity.attributes, a.type.isLookup ∧ a.logicalName = r.referencingAttribute
  lookups_used : ∀ entity ∈ e.entities, ∀ a ∈ entity.attributes, a.type.isLookup →
    (e.relationships.countP fun r => r.referencingEntity = entity.logicalName ∧
      r.referencingAttribute = a.logicalName) = 1
  roots_exact : e.rootComponents.Perm
    ((e.entities.map fun entity => ⟨"1", entity.logicalName⟩) ++
      e.relationships.map fun r => ⟨"10", r.name⟩)

/-! ### Lookups that are removed -/

/-- The entity without the lookup columns that are removed. -/
def Entity.without (removals : List (String × String)) (entity : Entity) : Entity :=
  { entity with
    attributes := entity.attributes.filter fun a =>
      (entity.logicalName, a.logicalName) ∉ removals }

@[simp] theorem Entity.without_logicalName (removals : List (String × String)) (entity : Entity) :
    (entity.without removals).logicalName = entity.logicalName := rfl

@[simp] theorem Entity.without_primary (removals : List (String × String)) (entity : Entity) :
    (entity.without removals).primaryNameColumn = entity.primaryNameColumn := rfl

variable {entity : Entity}

@[simp] theorem Entity.mem_without {removals : List (String × String)}
    {a : Attribute} : a ∈ (entity.without removals).attributes ↔
      a ∈ entity.attributes ∧ (entity.logicalName, a.logicalName) ∉ removals := by
  simp [without]

@[simp] theorem Entity.without_nil : Entity.without [] = id := by
  funext entity
  simp [without]

theorem Entity.without_append (first second : List (String × String)) (entity : Entity) :
    (entity.without first).without second = entity.without (first ++ second) := by
  have hattributes : ((entity.without first).without second).attributes =
      (entity.without (first ++ second)).attributes := by
    simp only [without, List.filter_filter]
    refine List.filter_congr fun a _ => ?_
    by_cases hfirst : (entity.logicalName, a.logicalName) ∈ first
    · simp [hfirst]
    · by_cases hsecond : (entity.logicalName, a.logicalName) ∈ second
      · simp [hsecond]
      · simp [hfirst, hsecond]
  simpa [without] using hattributes

theorem removeLookupAttribute_eq (entities : List Entity) (entity column : String) :
    Emission.removeLookupAttribute entities entity column =
      entities.map (Entity.without [(entity, column)]) := by
  refine List.map_congr_left fun e _ => ?_
  by_cases h : e.logicalName = entity
  · simp [Entity.without, h]
  · simp [Entity.without, h]

theorem addLink_entities (e : Emission) (l : Link) :
    (e.addLink l).entities = e.entities.map (Entity.without l.removal?.toList) := by
  cases l with
  | dropped entity column entry =>
      exact removeLookupAttribute_eq e.entities entity column
  | _ => simp [Emission.addLink, Emission.withhold, Link.removal?]

theorem foldl_addLink_entities (e : Emission) (links : List Link) :
    (links.foldl Emission.addLink e).entities =
      e.entities.map (Entity.without (links.filterMap Link.removal?)) := by
  induction links generalizing e with
  | nil => simp
  | cons l links ih =>
      rw [List.foldl_cons, ih, addLink_entities, List.map_map]
      refine List.map_congr_left fun entity _ => ?_
      rw [Function.comp_apply, Entity.without_append]
      cases h : l.removal? <;> simp [h]

/-! ### The emitted schema -/

def powerApps (artifacts : List Artifact) : List PowerApp := artifacts.filterMap Artifact.powerApp?

theorem powerApps_cons (a : Artifact) (artifacts : List Artifact) :
    powerApps (a :: artifacts) = a.powerApp?.toList ++ powerApps artifacts := by
  cases a <;> rfl

/-- The lookup columns that some of the artifacts remove. -/
def removals (apps : List PowerApp) : List (String × String) := apps.flatMap PowerApp.removals

/-- The entities of the artifacts, without the lookups that this or a later artifact removes. -/
def keptEntities : List PowerApp → List Entity
  | [] => []
  | app :: apps => app.entities.map (Entity.without (removals (app :: apps))) ++ keptEntities apps

theorem addPowerApp_entities (e : Emission) (app : PowerApp) : (e.addPowerApp app).entities =
    (e.entities ++ app.entities).map (Entity.without app.removals) := by
  rw [Emission.addPowerApp, foldl_addLink_entities,
    foldl_collects (Emission.addTable_entities app.scope), PowerApp.entities, PowerApp.removals,
    List.filterMap_eq_flatMap_toList Table.entity?]

theorem addArtifact_entities (e : Emission) (a : Artifact) : (e.addArtifact a).entities =
    (e.entities ++ a.entities).map (Entity.without (removals a.powerApp?.toList)) := by
  cases a with
  | powerApp app =>
      simpa [Emission.addArtifact, Artifact.entities, Artifact.powerApp?, removals] using
        addPowerApp_entities e app
  | _ =>
      simp [Emission.addArtifact, Emission.addDesign, Emission.withhold, Artifact.entities,
        Artifact.powerApp?, removals]

theorem foldl_addArtifact_entities (artifacts : List Artifact) (e : Emission) :
    (artifacts.foldl Emission.addArtifact e).entities =
      e.entities.map (Entity.without (removals (powerApps artifacts))) ++
        keptEntities (powerApps artifacts) := by
  induction artifacts generalizing e with
  | nil => simp [powerApps, removals, keptEntities]
  | cons a artifacts ih =>
      rw [List.foldl_cons, ih, addArtifact_entities, powerApps_cons]
      cases a with
      | powerApp app =>
          simp [Artifact.powerApp?, Artifact.entities, removals, keptEntities,
            Entity.without_append, Function.comp_def]
      | _ => simp [Artifact.powerApp?, Artifact.entities, removals]

theorem ofArtifacts_entities (artifacts : List Artifact) :
    (Emission.ofArtifacts artifacts).entities = keptEntities (powerApps artifacts) := by
  rw [Emission.ofArtifacts, foldl_addArtifact_entities]
  rfl

theorem addArtifact_relationships (e : Emission) (a : Artifact) : (e.addArtifact a).relationships =
    e.relationships ++ a.powerApp?.toList.flatMap PowerApp.relationships := by
  cases a with
  | powerApp app =>
      simp only [Emission.addArtifact, Emission.addPowerApp]
      rw [foldl_collects Emission.addLink_relationships,
        Emission.foldl_addTable_field (Emission.addTable_relationships app.scope)]
      simp [Artifact.powerApp?, PowerApp.relationships, List.filterMap_eq_flatMap_toList]
  | _ => simp [Emission.addArtifact, Emission.addDesign, Emission.withhold, Artifact.powerApp?]

theorem ofArtifacts_relationships (artifacts : List Artifact) :
    (Emission.ofArtifacts artifacts).relationships =
      (powerApps artifacts).flatMap PowerApp.relationships := by
  rw [Emission.ofArtifacts, foldl_collects addArtifact_relationships, powerApps,
    List.filterMap_eq_flatMap_toList, List.flatMap_assoc]
  rfl

theorem keptEntities_names (apps : List PowerApp) : (keptEntities apps).map Entity.logicalName =
    (apps.flatMap PowerApp.entities).map Entity.logicalName := by
  induction apps with
  | nil => rfl
  | cons app apps ih => simp [keptEntities, ih, Function.comp_def]

theorem mem_keptEntities {apps : List PowerApp} :
    entity ∈ keptEntities apps ↔ ∃ before app after, apps = before ++ app :: after ∧
      ∃ declared ∈ app.entities, entity = declared.without (removals (app :: after)) := by
  induction apps with
  | nil => simp [keptEntities]
  | cons app apps ih =>
      simp only [keptEntities, List.mem_append, List.mem_map, ih]
      constructor
      · rintro (⟨declared, hdeclared, rfl⟩ | ⟨before, app', after, rfl, hentity⟩)
        · exact ⟨[], app, apps, rfl, declared, hdeclared, rfl⟩
        · exact ⟨app :: before, app', after, rfl, hentity⟩
      · rintro ⟨before, app', after, happs, declared, hdeclared, rfl⟩
        cases before with
        | nil =>
            cases happs
            exact .inl ⟨declared, hdeclared, rfl⟩
        | cons first before =>
            cases happs
            exact .inr ⟨before, app', after, rfl, declared, hdeclared, rfl⟩

theorem addArtifact_rootComponents (e : Emission) (a : Artifact) :
    (e.addArtifact a).rootComponents = e.rootComponents ++ a.powerApp?.toList.flatMap fun app =>
      (app.entities.map fun entity => ⟨"1", entity.logicalName⟩) ++
        app.relationships.map fun r => ⟨"10", r.name⟩ := by
  cases a with
  | powerApp app =>
      simp only [Emission.addArtifact, Emission.addPowerApp]
      rw [foldl_collects Emission.addLink_rootComponents,
        foldl_collects (Emission.addTable_rootComponents app.scope)]
      simp [Artifact.powerApp?, PowerApp.relationships, PowerApp.entities,
        List.filterMap_eq_flatMap_toList, List.map_flatMap]
  | _ => simp [Emission.addArtifact, Emission.addDesign, Emission.withhold, Artifact.powerApp?]

theorem ofArtifacts_rootComponents (artifacts : List Artifact) :
    (Emission.ofArtifacts artifacts).rootComponents.Perm
      (((Emission.ofArtifacts artifacts).entities.map fun entity => ⟨"1", entity.logicalName⟩) ++
        (Emission.ofArtifacts artifacts).relationships.map fun r => ⟨"10", r.name⟩) := by
  have hroots : (Emission.ofArtifacts artifacts).rootComponents =
      (powerApps artifacts).flatMap fun app =>
        (app.entities.map fun entity => ⟨"1", entity.logicalName⟩) ++
          app.relationships.map fun r => ⟨"10", r.name⟩ := by
    rw [Emission.ofArtifacts, foldl_collects addArtifact_rootComponents, powerApps,
      List.filterMap_eq_flatMap_toList, List.flatMap_assoc]
    rfl
  rw [hroots, ofArtifacts_entities, ofArtifacts_relationships]
  generalize powerApps artifacts = apps
  induction apps with
  | nil => exact .nil
  | cons app apps ih =>
      simp only [keptEntities, List.flatMap_cons, List.map_append, List.map_map, Function.comp_def,
        Entity.without_logicalName]
      refine (ih.append_left _).trans ?_
      rw [List.append_assoc, List.append_assoc]
      refine List.Perm.append_left _ ?_
      rw [← List.append_assoc, ← List.append_assoc]
      exact List.perm_append_comm.append_right _

/-! ### What was read -/

theorem mem_readArtifacts {reader : Reader} {index : ℕ}
    {inputs : List (List (String × JsonValue))} {artifacts : List Artifact}
    (h : reader.readArtifacts index inputs = .ok artifacts)
    {a : Artifact} (ha : a ∈ artifacts) :
    ∃ index fields, reader.readArtifact index fields = .ok a := by
  induction inputs generalizing index artifacts with
  | nil =>
      cases h
      cases ha
  | cons fields inputs ih =>
      simp only [Reader.readArtifacts, bind_eq_ok, pure_eq_ok] at h
      obtain ⟨first, hfirst, rest, hrest, rfl⟩ := h
      rcases List.mem_cons.mp ha with rfl | ha
      · exact ⟨index, fields, hfirst⟩
      · exact ih hrest ha

/-- A relationship connects entities of its artifact. -/
def PowerApp.Connected (app : PowerApp) : Prop :=
  ∀ r ∈ app.relationships, r.referencingEntity ∈ emittedNames app.tables ∧
    r.referencedEntity ∈ emittedNames app.tables

theorem relationship_inferLink {scope : Scope} {tables : List Table} {t column target : String}
    {r : Relationship} (h : (scope.inferLink tables t column target).relationship? = some r) :
    r.referencingEntity ∈ emittedNames tables ∧ r.referencedEntity ∈ emittedNames tables := by
  rw [Scope.inferLink] at h
  split at h
  · rename_i hemitted
    cases h
    exact hemitted
  · cases h

theorem relationship_resolveLink {scope : Scope} {tables : List Table}
    {id name referencing referenced column : String} {r : Relationship}
    (h : (scope.resolveLink tables id name referencing referenced column).relationship? =
      some r) :
    r.referencingEntity ∈ emittedNames tables ∧ r.referencedEntity ∈ emittedNames tables := by
  rw [Scope.resolveLink] at h
  split at h
  · cases h
  · split at h
    · cases h
    · split at h
      · cases h
      · rename_i hemitted
        cases h
        simpa only [not_or, Classical.not_not] using hemitted

theorem relationship_readLink {scope : Scope} {tables : List Table} {index : ℕ} {raw : JsonValue}
    {l : Link} (h : scope.readLink tables index raw = .ok l) {r : Relationship}
    (hr : l.relationship? = some r) :
    r.referencingEntity ∈ emittedNames tables ∧ r.referencedEntity ∈ emittedNames tables := by
  cases raw with
  | object fields =>
      simp only [Scope.readLink] at h
      split at h
      · cases h
        cases hr
      · cases h
        cases hr
      · simp only [Scope.readNamedLink, bind_eq_ok] at h
        obtain ⟨referencing, -, referenced, -, name, -, h⟩ := h
        split at h
        · cases h
          cases hr
        · simp only [bind_eq_ok, pure_eq_ok] at h
          obtain ⟨column, -, rfl⟩ := h
          exact relationship_resolveLink hr
  | _ => cases h

theorem mem_readLinks {scope : Scope} {tables : List Table} {index : ℕ} {items : List JsonValue}
    {links : List Link} (h : scope.readLinks tables index items = .ok links) {l : Link}
    (hl : l ∈ links) : ∃ index raw, scope.readLink tables index raw = .ok l := by
  induction items generalizing index links with
  | nil =>
      cases h
      cases hl
  | cons raw items ih =>
      simp only [Scope.readLinks, bind_eq_ok, pure_eq_ok] at h
      obtain ⟨first, hfirst, rest, hrest, rfl⟩ := h
      rcases List.mem_cons.mp hl with rfl | hl
      · exact ⟨index, raw, hfirst⟩
      · exact ih hrest hl

theorem connected_readDataverse {reader : Reader} {artifact dataverse : List (String × JsonValue)}
    {rawTables : List JsonValue} {app : PowerApp}
    (h : reader.readDataverse artifact dataverse rawTables = .ok app) : app.Connected := by
  simp only [Reader.readDataverse, bind_eq_ok] at h
  obtain ⟨canvas, -, names, -, rawRelationships, -, tables, -, h⟩ := h
  cases rawRelationships with
  | none =>
      cases h
      intro r hr
      obtain ⟨l, hl, hr⟩ := List.mem_filterMap.mp hr
      simp only [Scope.inferLinks, List.mem_flatMap, List.mem_filterMap] at hl
      obtain ⟨t, -, c, -, hl⟩ := hl
      split at hl
      · cases hl
        exact relationship_inferLink hr
      · cases hl
  | some items =>
      simp only [bind_eq_ok, pure_eq_ok] at h
      obtain ⟨links, hlinks, rfl⟩ := h
      intro r hr
      obtain ⟨l, hl, hr⟩ := List.mem_filterMap.mp hr
      obtain ⟨index, raw, hread⟩ := mem_readLinks hlinks hl
      exact relationship_readLink hread hr

theorem connected_readArtifact {reader : Reader} {index : ℕ} {fields : List (String × JsonValue)}
    {app : PowerApp} (h : reader.readArtifact index fields = .ok (.powerApp app)) :
    app.Connected := by
  simp only [Reader.readArtifact] at h
  split at h
  · simp only [bind_eq_ok, pure_eq_ok, Artifact.powerApp.injEq] at h
    obtain ⟨app', hread, rfl⟩ := h
    rw [Reader.readPowerApp] at hread
    split at hread
    · split at hread
      · exact connected_readDataverse hread
      · cases hread
    · cases hread
  · split at h
    · simp only [bind_eq_ok, pure_eq_ok, reduceCtorEq, and_false, exists_false] at h
    · split at h
      · simp only [bind_eq_ok, pure_eq_ok, reduceCtorEq, and_false, exists_false] at h
      · cases h

theorem connected_of_read {lib : Library} {request : Request} {reading : Reading}
    (h : request.read lib = .ok reading) : ∀ app ∈ powerApps reading.artifacts, app.Connected := by
  intro app happ
  obtain ⟨a, ha, happ⟩ := List.mem_filterMap.mp happ
  simp only [Request.read, bind_eq_ok, pure_eq_ok] at h
  obtain ⟨header, -, combined, -, inputs, -, name, -, artifacts, hread, rfl⟩ := h
  obtain ⟨index, fields, hartifact⟩ := mem_readArtifacts hread ha
  cases a with
  | powerApp app' =>
      cases happ
      exact connected_readArtifact hartifact
  | _ => cases happ

/-! ### Declarations that fit together -/

def ColumnKind.isLookup : ColumnKind → Bool
  | .lookup _ _ => true
  | _ => false

/-- The column is mapped, and no artifact drops it. -/
def Table.Keeps (t : Table) (apps : List PowerApp) (c : Column) : Prop :=
  c ∈ t.columns ∧ c.attribute?.isSome ∧ (t.logical, c.name) ∉ removals apps

/-- What the declarations of an artifact meet, where `rest` are the artifacts from this one on. -/
structure PowerApp.Coherent (app : PowerApp) (rest apps : List PowerApp) : Prop where
  /-- The primary column of an importable table is kept. -/
  primary_kept : ∀ t ∈ app.tables, ∀ primary displayName,
    t.verdict = .importable primary displayName → ∃ c, t.Keeps rest c ∧ c.name = primary
  /-- A relationship names a lookup column of an importable table that is kept. -/
  lookup_kept : ∀ r ∈ app.relationships, ∃ t ∈ app.tables, t.entity?.isSome ∧
    t.logical = r.referencingEntity ∧
      ∃ c, t.Keeps rest c ∧ c.kind.isLookup ∧ c.name = r.referencingAttribute
  /-- A lookup column of an importable table that is kept is named by one relationship. -/
  lookup_named : ∀ t ∈ app.tables, t.entity?.isSome → ∀ c, t.Keeps rest c → c.kind.isLookup →
    ((apps.flatMap PowerApp.relationships).countP fun r =>
      r.referencingEntity = t.logical ∧ r.referencingAttribute = c.name) = 1

/-- The tables, columns and relationships that the artifacts declare fit together. -/
structure Coherent (apps : List PowerApp) : Prop where
  tables_distinct : (apps.flatMap fun app => emittedNames app.tables).Nodup
  relationships_distinct : ((apps.flatMap PowerApp.relationships).map Relationship.name).Nodup
  apps_coherent : ∀ before app after, apps = before ++ app :: after →
    app.Coherent (app :: after) apps

theorem entity?_eq_some {t : Table} : t.entity? = some entity ↔
    ∃ primary displayName, t.verdict = .importable primary displayName ∧
      entity = ⟨t.logical, displayName, t.attributes, primary⟩ := by
  cases h : t.verdict <;> simp [Table.entity?, h, eq_comm]

theorem emittedNames_eq (app : PowerApp) :
    emittedNames app.tables = app.entities.map Entity.logicalName := by
  rw [emittedNames, PowerApp.entities, List.map_filterMap]

theorem attribute?_name {c : Column} {a : Attribute} (h : c.attribute? = some a) :
    a.logicalName = c.name ∧ a.type.isLookup = c.kind.isLookup := by
  cases hk : c.kind <;> simp_all [Column.attribute?] <;> subst h <;>
    simp [FieldType.isLookup, ColumnKind.isLookup]

/-- The kept attributes of an entity are those of the kept columns of its table. -/
theorem exists_attribute_iff {t : Table} {rest : List PowerApp}
    (h : t.entity? = some entity) (P : String → Bool → Prop) :
    (∃ a ∈ (entity.without (removals rest)).attributes, P a.logicalName a.type.isLookup) ↔
      ∃ c, t.Keeps rest c ∧ P c.name c.kind.isLookup := by
  obtain ⟨primary, displayName, -, rfl⟩ := entity?_eq_some.mp h
  constructor
  · rintro ⟨a, ha, hP⟩
    obtain ⟨ha, hkept⟩ := Entity.mem_without.mp ha
    obtain ⟨c, hc, hattribute⟩ := List.mem_filterMap.mp ha
    obtain ⟨hname, htype⟩ := attribute?_name hattribute
    rw [hname, htype] at hP
    rw [hname] at hkept
    exact ⟨c, ⟨hc, Option.isSome_iff_exists.mpr ⟨a, hattribute⟩, hkept⟩, hP⟩
  · rintro ⟨c, ⟨hc, hsome, hkept⟩, hP⟩
    obtain ⟨a, hattribute⟩ := Option.isSome_iff_exists.mp hsome
    obtain ⟨hname, htype⟩ := attribute?_name hattribute
    rw [← hname, ← htype] at hP
    rw [← hname] at hkept
    exact ⟨a, Entity.mem_without.mpr ⟨List.mem_filterMap.mpr ⟨c, hc, hattribute⟩, hkept⟩, hP⟩

section Schema

variable {apps : List PowerApp}

/-- The emitted entities, by the tables that they come from. -/
theorem forall_keptEntities (P : Entity → Prop) : (∀ entity ∈ keptEntities apps, P entity) ↔
    ∀ before app after, apps = before ++ app :: after → ∀ t ∈ app.tables, ∀ entity,
      t.entity? = some entity → P (entity.without (removals (app :: after))) := by
  constructor
  · intro h before app after happs t ht entity hentity
    exact h _ (mem_keptEntities.mpr ⟨before, app, after, happs, entity,
      List.mem_filterMap.mpr ⟨t, ht, hentity⟩, rfl⟩)
  · intro h entity hentity
    obtain ⟨before, app, after, happs, declared, hdeclared, rfl⟩ := mem_keptEntities.mp hentity
    obtain ⟨t, ht, hentity⟩ := List.mem_filterMap.mp hdeclared
    exact h before app after happs t ht declared hentity

/-- With distinct names, the emitted entity of a name is that of the artifact which has it. -/
theorem kept_of_name (hdistinct : ((keptEntities apps).map Entity.logicalName).Nodup)
    {before after : List PowerApp} {app : PowerApp} (happs : apps = before ++ app :: after)
    {declared : Entity} (hdeclared : declared ∈ app.entities)
    (hentity : entity ∈ keptEntities apps) (hname : entity.logicalName = declared.logicalName) :
    entity = declared.without (removals (app :: after)) :=
  List.inj_on_of_nodup_map hdistinct hentity
    (mem_keptEntities.mpr ⟨before, app, after, happs, declared, hdeclared, rfl⟩) hname

end Schema

theorem closed_of_coherent {artifacts : List Artifact}
    (hconnected : ∀ app ∈ powerApps artifacts, app.Connected)
    (h : Coherent (powerApps artifacts)) : (Emission.ofArtifacts artifacts).Closed where
  entities_distinct := by
    rw [ofArtifacts_entities, keptEntities_names, List.map_flatMap]
    simpa only [emittedNames_eq] using h.tables_distinct
  relationships_distinct := by
    rw [ofArtifacts_relationships]
    exact h.relationships_distinct
  primary_emitted := by
    rw [ofArtifacts_entities, forall_keptEntities]
    intro before app after happs t ht entity hentity
    obtain ⟨primary, displayName, hverdict, hdeclared⟩ := entity?_eq_some.mp hentity
    have hprimary : entity.primaryNameColumn = primary := by rw [hdeclared]
    rw [Entity.without_primary, hprimary,
      exists_attribute_iff hentity fun name _ => name = primary]
    exact (h.apps_coherent before app after happs).primary_kept t ht primary displayName hverdict
  connected := by
    rw [ofArtifacts_entities, ofArtifacts_relationships]
    intro r hr
    obtain ⟨app, happ, hr⟩ := List.mem_flatMap.mp hr
    obtain ⟨before, after, happs⟩ := List.append_of_mem happ
    have hreferenced := (hconnected app happ r hr).2
    rw [emittedNames_eq] at hreferenced
    obtain ⟨referenced, hreferenced, hname⟩ := List.mem_map.mp hreferenced
    obtain ⟨t, ht, hsome, hreferencing, hlookup⟩ :=
      (h.apps_coherent before app after happs).lookup_kept r hr
    obtain ⟨entity, hentity⟩ := Option.isSome_iff_exists.mp hsome
    refine ⟨⟨_, mem_keptEntities.mpr ⟨before, app, after, happs, referenced, hreferenced, rfl⟩,
      hname⟩, _, mem_keptEntities.mpr ⟨before, app, after, happs, entity,
        List.mem_filterMap.mpr ⟨t, ht, hentity⟩, rfl⟩, ?_, ?_⟩
    · obtain ⟨primary, displayName, -, rfl⟩ := entity?_eq_some.mp hentity
      exact hreferencing
    · exact (exists_attribute_iff hentity fun name lookup =>
        lookup = true ∧ name = r.referencingAttribute).mpr hlookup
  lookups_used := by
    rw [ofArtifacts_entities, ofArtifacts_relationships, forall_keptEntities]
    intro before app after happs t ht entity hentity a ha hlookup
    have hnamed := (h.apps_coherent before app after happs).lookup_named t ht
      (Option.isSome_iff_exists.mpr ⟨entity, hentity⟩)
    obtain ⟨c, hkeeps, hkind, hname⟩ := (exists_attribute_iff hentity fun name lookup =>
      lookup = true ∧ name = a.logicalName).mp ⟨a, ha, hlookup, rfl⟩
    have hlogical : entity.logicalName = t.logical := by
      obtain ⟨primary, displayName, -, rfl⟩ := entity?_eq_some.mp hentity
      rfl
    rw [Entity.without_logicalName, hlogical, ← hname]
    exact hnamed c hkeeps hkind
  roots_exact := ofArtifacts_rootComponents artifacts

theorem coherent_of_closed {artifacts : List Artifact}
    (hconnected : ∀ app ∈ powerApps artifacts, app.Connected)
    (h : (Emission.ofArtifacts artifacts).Closed) : Coherent (powerApps artifacts) where
  tables_distinct := by
    have hdistinct := h.entities_distinct
    rw [ofArtifacts_entities, keptEntities_names, List.map_flatMap] at hdistinct
    simpa only [emittedNames_eq] using hdistinct
  relationships_distinct := by
    have hdistinct := h.relationships_distinct
    rwa [ofArtifacts_relationships] at hdistinct
  apps_coherent := by
    intro before app after happs
    have hdistinct := h.entities_distinct
    have hprimary := h.primary_emitted
    have hlinks := h.connected
    have hused := h.lookups_used
    rw [ofArtifacts_entities] at hdistinct hprimary hused hlinks
    rw [ofArtifacts_relationships] at hlinks hused
    rw [forall_keptEntities] at hprimary hused
    refine ⟨?_, ?_, ?_⟩
    · intro t ht primary displayName hverdict
      have hentity : t.entity? = some ⟨t.logical, displayName, t.attributes, primary⟩ :=
        entity?_eq_some.mpr ⟨primary, displayName, hverdict, rfl⟩
      exact (exists_attribute_iff hentity fun name _ => name = primary).mp
        (hprimary before app after happs t ht _ hentity)
    · intro r hr
      have happ : app ∈ powerApps artifacts := by
        rw [happs]
        exact List.mem_append_right _ List.mem_cons_self
      have hreferencing := (hconnected app happ r hr).1
      rw [emittedNames_eq] at hreferencing
      obtain ⟨declared, hdeclared, hname⟩ := List.mem_map.mp hreferencing
      obtain ⟨t, ht, hentity⟩ := List.mem_filterMap.mp hdeclared
      obtain ⟨-, entity, hkept, hlogical, hattribute⟩ :=
        hlinks r (List.mem_flatMap.mpr ⟨app, happ, hr⟩)
      rw [kept_of_name hdistinct happs hdeclared hkept (hlogical.trans hname.symm),
        exists_attribute_iff hentity fun name lookup =>
          lookup = true ∧ name = r.referencingAttribute] at hattribute
      refine ⟨t, ht, Option.isSome_iff_exists.mpr ⟨declared, hentity⟩, ?_, hattribute⟩
      obtain ⟨primary, displayName, -, rfl⟩ := entity?_eq_some.mp hentity
      exact hname
    · intro t ht hsome c hkeeps hkind
      obtain ⟨entity, hentity⟩ := Option.isSome_iff_exists.mp hsome
      obtain ⟨a, ha, hlookup, hname⟩ := (exists_attribute_iff hentity fun name lookup =>
        lookup = true ∧ name = c.name).mpr ⟨c, hkeeps, hkind, rfl⟩
      have hcount := hused before app after happs t ht entity hentity a ha hlookup
      have hlogical : entity.logicalName = t.logical := by
        obtain ⟨primary, displayName, -, rfl⟩ := entity?_eq_some.mp hentity
        rfl
      rwa [Entity.without_logicalName, hlogical, hname] at hcount

/-- The schema of a package is closed exactly if the declarations of its artifacts fit together. -/
theorem closed_iff_coherent {lib : Library} {request : Request}
    {package : List (String × JsonValue)}
    (h : buildPowerPlatformPackage lib request = .ok package) :
    ∃ reading, request.read lib = .ok reading ∧
      ((Emission.ofArtifacts reading.artifacts).Closed ↔
        Coherent (powerApps reading.artifacts)) := by
  obtain ⟨reading, files, serialized, hread, -⟩ := build_eq_ok h
  have hconnected := connected_of_read hread
  exact ⟨reading, hread, coherent_of_closed hconnected, closed_of_coherent hconnected⟩

theorem closed_iff_coherent_example : ∃ package,
    buildPowerPlatformPackage exampleLibrary exampleRequest = .ok package ∧
      ∃ reading, exampleRequest.read exampleLibrary = .ok reading ∧
        ((Emission.ofArtifacts reading.artifacts).Closed ↔
          Coherent (powerApps reading.artifacts)) := by
  obtain ⟨package, hbuild⟩ := build_example
  exact ⟨package, hbuild, closed_iff_coherent hbuild⟩

/-- Two tables of one name become two entities of one name. -/
theorem not_closed : ¬ ∀ (lib : Library) (request : Request)
    (package : List (String × JsonValue)), buildPowerPlatformPackage lib request = .ok package →
      ∃ reading, request.read lib = .ok reading ∧
        (Emission.ofArtifacts reading.artifacts).Closed := by
  intro h
  obtain ⟨package, hbuild⟩ := build_example
  obtain ⟨reading, hread, hclosed⟩ := h _ _ _ hbuild
  obtain ⟨reading', hread', -, -, hemission⟩ := read_example
  cases hread.symm.trans hread'
  rw [hemission] at hclosed
  exact absurd hclosed.entities_distinct (by decide)

end WaitLocalAgent.PowerPlatform
