import WaitLocalAgent.Verification.PowerPlatform.Files

/-! # The status of a package

Whatever is left out of a package is named among its design-only components. All of it but a lookup
column without a target entity also takes the full status away. -/

namespace WaitLocalAgent.PowerPlatform

open Foundation

section Fields

variable (lib : Library) (header : Header) (uniqueName digest : String) (e : Emission)
  (files : List PackageFile)

theorem get_packageStatus :
    JsonValue.get (packageFields lib header uniqueName e files ++
      [("package_digest", .text digest)]) "package_status" = .text e.packageStatus := by
  simp [JsonValue.get, JsonValue.get?, packageFields]

theorem get_deployable :
    JsonValue.get (packageFields lib header uniqueName e files ++
      [("package_digest", .text digest)]) "deployable" = .bool e.deployable := by
  simp [JsonValue.get, JsonValue.get?, packageFields]

theorem get_designOnly :
    JsonValue.get (packageFields lib header uniqueName e files ++
      [("package_digest", .text digest)]) "design_only_components" = .array e.designOnlyJson := by
  simp [JsonValue.get, JsonValue.get?, packageFields]

end Fields

theorem designOnlyJson_eq_nil {e : Emission} : e.designOnlyJson = [] ↔ e.designOnly = [] := by
  rw [Emission.designOnlyJson, List.map_eq_nil_iff, ← List.length_eq_zero_iff,
    List.length_insertionSort, List.length_eq_zero_iff]

theorem packageStatus_eq_deployable {e : Emission} : e.packageStatus = "deployable_source" ↔
    e.deployable = true ∧ ∀ c ∈ e.emittedClasses, c ∈ e.importCompleteClasses := by
  simp only [Emission.packageStatus, List.all_eq_true, List.contains_iff_mem]
  split
  · simp_all
  · simp_all

/-- The table is emitted, with all columns but lookups without a target entity. -/
def Table.OtherwiseMapped (t : Table) : Prop :=
  t.entity?.isSome ∧ ∀ c ∈ t.columns, c.kind ≠ .untargeted → c.attribute?.isSome

/-- Nothing but lookup columns without a target entity is left out of the artifact. -/
def Artifact.OtherwiseMapped : Artifact → Prop
  | .powerApp app =>
      (∀ t ∈ app.tables, t.OtherwiseMapped) ∧ ∀ l ∈ app.links, l.relationship?.isSome
  | .flow _ => False
  | .connector _ => False
  | .unknown _ => True

/-- Some lookup column of the artifact has no target entity. -/
def Artifact.Untargeted : Artifact → Prop
  | .powerApp app => ∃ t ∈ app.tables, ∃ c ∈ t.columns, c.kind = .untargeted
  | _ => False

/-- The only items of the request that the package leaves out are lookup columns without a target
entity, and there are some. -/
def Request.HidesLookups (lib : Library) (request : Request) : Prop :=
  ∃ reading, request.read lib = .ok reading ∧ (∃ a ∈ reading.artifacts, a.Untargeted) ∧
    ∀ a ∈ reading.artifacts, a.OtherwiseMapped

/-- `package_status` is `deployable_source` exactly for a deployable package without design-only
components. -/
def StatusHonest (package : List (String × JsonValue)) : Prop :=
  JsonValue.get package "package_status" = .text "deployable_source" ↔
    JsonValue.get package "deployable" = .bool true ∧
      JsonValue.get package "design_only_components" = .array []

theorem Column.mapped_iff (c : Column) : (c.kind ≠ .untargeted → c.attribute?.isSome) ↔
    (∀ x ∈ c.classes, x = "entity") ∧ c.unmappedType? = none := by
  cases h : c.kind <;> simp [attribute?, classes, unmappedType?, h]

theorem partiallyMapped_iff (t : Table) :
    (∀ x ∈ if t.columns.any fun c => c.unmappedType?.isSome then ["partially_mapped_entity"]
      else [], x = "entity") ↔ ∀ c ∈ t.columns, c.unmappedType? = none := by
  split
  · rename_i hany
    obtain ⟨c, hc, hsome⟩ := List.any_eq_true.mp hany
    constructor
    · intro h
      simpa using h _ List.mem_cons_self
    · intro h
      simp [h c hc] at hsome
  · rename_i hany
    simpa using hany

theorem Table.classes_iff (t : Table) :
    (∀ c ∈ t.classes, c = "entity") ↔ t.OtherwiseMapped := by
  cases hverdict : t.verdict with
  | withheld reason => simp [classes, OtherwiseMapped, hverdict, entity?]
  | importable primary displayName =>
      simp only [classes, OtherwiseMapped, hverdict, entity?, Option.isSome_some, true_and,
        Column.mapped_iff, List.mem_cons, List.mem_append, List.mem_flatMap, or_imp, forall_and,
        forall_eq, ← partiallyMapped_iff]
      refine and_congr_left fun _ => ⟨fun h c hc x hx => h x ⟨c, hc, hx⟩, fun h x hx => ?_⟩
      obtain ⟨c, hc, hx⟩ := hx
      exact h c hc x hx

theorem Link.classes_iff (l : Link) :
    (∀ c ∈ l.classes, c = "entity") ↔ l.relationship?.isSome := by
  cases l <;> simp [classes, relationship?]

theorem Artifact.classes_iff (a : Artifact) :
    (∀ c ∈ a.classes, c = "entity") ↔ a.OtherwiseMapped := by
  cases a with
  | powerApp app =>
      simp only [classes, OtherwiseMapped, List.mem_append, List.mem_flatMap, or_imp, forall_and,
        ← Table.classes_iff, ← Link.classes_iff]
      refine and_congr ⟨fun h t ht c hc => h c ⟨t, ht, hc⟩, fun h c hc => ?_⟩
        ⟨fun h l hl c hc => h c ⟨l, hl, hc⟩, fun h c hc => ?_⟩
      · obtain ⟨t, ht, hc⟩ := hc
        exact h t ht c hc
      · obtain ⟨l, hl, hc⟩ := hc
        exact h l hl c hc
  | _ => simp [classes, OtherwiseMapped]

/-- No artifact emits the classes that every package has. -/
theorem Artifact.not_base {a : Artifact} {x : String} (hx : x ∈ a.classes) :
    x ∉ ["publisher", "solution_manifest"] := by
  cases a with
  | powerApp app =>
      simp only [classes, List.mem_append, List.mem_flatMap] at hx
      rcases hx with ⟨t, -, hx⟩ | ⟨l, -, hx⟩
      · simp only [Table.classes, List.mem_append, List.mem_cons, List.mem_flatMap, or_assoc] at hx
        rcases hx with rfl | ⟨c, -, hx⟩ | hx
        · decide
        · cases hk : c.kind <;> simp_all [Column.classes]
        · cases hverdict : t.verdict <;> simp_all
      · cases l <;> simp_all [Link.classes, Link.relationship?]
  | _ => simp_all [classes]

theorem Column.reason?_eq_none (c : Column) : c.reason? = none ↔ c.attribute?.isSome := by
  cases h : c.kind <;> simp [reason?, attribute?, h]

theorem Column.designOnly?_eq_none {scope : Scope} {logical : String} {c : Column} :
    c.designOnly? scope logical = none ↔ c.attribute?.isSome := by
  simp [designOnly?, reason?_eq_none]

theorem Table.designOnly_eq_nil {scope : Scope} {t : Table} : t.designOnly scope = [] ↔
    t.entity?.isSome ∧ ∀ c ∈ t.columns, c.attribute?.isSome := by
  rw [designOnly, List.append_eq_nil_iff, and_comm, List.filterMap_eq_nil_iff]
  simp only [Column.designOnly?_eq_none]
  refine and_congr_left fun _ => ?_
  cases h : t.verdict <;> simp [reason?, entity?, h]

theorem Link.designOnly?_eq_none {l : Link} : l.designOnly? = none ↔ l.relationship?.isSome := by
  cases l <;> simp [designOnly?, relationship?]

/-- An artifact without design-only components is mapped in full. -/
theorem Artifact.designOnly_eq_nil (a : Artifact) :
    a.designOnly = [] ↔ a.OtherwiseMapped ∧ ¬ a.Untargeted := by
  cases a with
  | powerApp app =>
      simp only [designOnly, OtherwiseMapped, Untargeted, List.append_eq_nil_iff,
        List.flatMap_eq_nil_iff, List.filterMap_eq_nil_iff, Table.designOnly_eq_nil,
        Link.designOnly?_eq_none, Table.OtherwiseMapped]
      constructor
      · intro h
        refine ⟨⟨fun t ht => ⟨(h.1 t ht).1, fun c hc _ => (h.1 t ht).2 c hc⟩, h.2⟩, ?_⟩
        rintro ⟨t, ht, c, hc, hkind⟩
        have hattribute := (h.1 t ht).2 c hc
        simp [Column.attribute?, hkind] at hattribute
      · intro h
        refine ⟨fun t ht => ⟨(h.1.1 t ht).1, fun c hc => ?_⟩, h.1.2⟩
        exact (h.1.1 t ht).2 c hc fun hkind => h.2 ⟨t, ht, c, hc, hkind⟩
  | _ => simp [designOnly, OtherwiseMapped, Untargeted]

/-- A lookup column lies in a table that is emitted, so its package is deployable. -/
theorem Artifact.entities_ne_nil {a : Artifact} (h : a.Untargeted) (hmapped : a.OtherwiseMapped) :
    a.entities ≠ [] := by
  cases a with
  | powerApp app =>
      obtain ⟨t, ht, -⟩ := h
      obtain ⟨entity, hentity⟩ := Option.isSome_iff_exists.mp (hmapped.1 t ht).1
      exact List.ne_nil_of_mem (List.mem_filterMap.mpr ⟨t, ht, hentity⟩)
  | _ => exact h.elim

section Emissions

variable (artifacts : List Artifact)

theorem emittedClasses_complete (h : (Emission.ofArtifacts artifacts).deployable = true) :
    (∀ c ∈ (Emission.ofArtifacts artifacts).emittedClasses,
      c ∈ (Emission.ofArtifacts artifacts).importCompleteClasses) ↔
        ∀ a ∈ artifacts, a.OtherwiseMapped := by
  have hentity := (Emission.deployable_iff artifacts).mp h
  simp only [Emission.mem_emittedClasses, Emission.mem_importCompleteClasses]
  constructor
  · intro h a ha
    rw [← Artifact.classes_iff]
    intro c hc
    rcases h c (.inr ⟨a, ha, hc⟩) with hbase | ⟨hentity, -⟩
    · exact absurd hbase (Artifact.not_base hc)
    · exact hentity
  · intro h c hc
    rcases hc with hbase | ⟨a, ha, hc⟩
    · exact .inl hbase
    · exact .inr ⟨(Artifact.classes_iff a).mpr (h a ha) c hc, hentity⟩

theorem designOnly_eq_nil : (Emission.ofArtifacts artifacts).designOnly = [] ↔
    (∀ a ∈ artifacts, a.OtherwiseMapped) ∧ ¬ ∃ a ∈ artifacts, a.Untargeted := by
  simp only [Emission.ofArtifacts_designOnly, List.flatMap_eq_nil_iff, Artifact.designOnly_eq_nil]
  constructor
  · exact fun h => ⟨fun a ha => (h a ha).1, fun ⟨a, ha, hu⟩ => (h a ha).2 hu⟩
  · exact fun h a ha => ⟨h.1 a ha, fun hu => h.2 ⟨a, ha, hu⟩⟩

end Emissions

/-- The status of a package is honest exactly if the request does not hide lookups. -/
theorem statusHonest_iff {lib : Library} {request : Request} {package : List (String × JsonValue)}
    (h : buildPowerPlatformPackage lib request = .ok package) :
    StatusHonest package ↔ ¬ request.HidesLookups lib := by
  obtain ⟨reading, files, serialized, hread, -, -, -, rfl⟩ := build_eq_ok h
  have hhides : request.HidesLookups lib ↔ (∃ a ∈ reading.artifacts, a.Untargeted) ∧
      ∀ a ∈ reading.artifacts, a.OtherwiseMapped := by
    constructor
    · rintro ⟨other, hother, hlookups⟩
      cases hread.symm.trans hother
      exact hlookups
    · exact fun hlookups => ⟨reading, hread, hlookups⟩
  rw [StatusHonest, get_packageStatus, get_deployable, get_designOnly, hhides]
  simp only [JsonValue.text.injEq, JsonValue.bool.injEq, JsonValue.array.injEq,
    packageStatus_eq_deployable, designOnlyJson_eq_nil, designOnly_eq_nil]
  constructor
  · rintro hiff ⟨hlookups, hmapped⟩
    obtain ⟨a, ha, hu⟩ := hlookups
    have hdeployable := (Emission.deployable_iff reading.artifacts).mpr
      ⟨a, ha, Artifact.entities_ne_nil hu (hmapped a ha)⟩
    have hfull := hiff.mp
      ⟨hdeployable, (emittedClasses_complete reading.artifacts hdeployable).mpr hmapped⟩
    exact hfull.2.2 ⟨a, ha, hu⟩
  · intro hnot
    refine and_congr_right fun hdeployable => ?_
    rw [emittedClasses_complete reading.artifacts hdeployable]
    exact ⟨fun hmapped => ⟨hmapped, fun hlookups => hnot ⟨hlookups, hmapped⟩⟩, fun h => h.1⟩

theorem statusHonest_iff_example : ∃ package,
    buildPowerPlatformPackage exampleLibrary exampleRequest = .ok package ∧
      (StatusHonest package ↔ ¬ exampleRequest.HidesLookups exampleLibrary) := by
  obtain ⟨package, hbuild⟩ := build_example
  exact ⟨package, hbuild, statusHonest_iff hbuild⟩

/-- The lookup column without a target entity is left out of a package with the full status. -/
theorem not_statusHonest : ¬ ∀ (lib : Library) (request : Request)
    (package : List (String × JsonValue)), buildPowerPlatformPackage lib request = .ok package →
      StatusHonest package := by
  intro h
  obtain ⟨package, hbuild⟩ := build_example
  have hhonest := h _ _ _ hbuild
  obtain ⟨reading, files, serialized, hread, -, -, -, rfl⟩ := build_eq_ok hbuild
  obtain ⟨reading', hread', -, -, hemission⟩ := read_example
  cases hread.symm.trans hread'
  rw [StatusHonest, get_packageStatus, get_deployable, get_designOnly, hemission] at hhonest
  have hfull : exampleEmission.packageStatus = "deployable_source" := by decide
  have hdesign := (hhonest.mp (by rw [hfull])).2
  simp [designOnlyJson_eq_nil, exampleEmission] at hdesign

end WaitLocalAgent.PowerPlatform
