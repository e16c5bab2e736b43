import WaitLocalAgent.Foundation.JsonSize
import WaitLocalAgent.Verification.PowerPlatform.Emission

/-! # The files of a package

A package has three XML files, and one file each for its unsupported and its design-only components.
It is built exactly when the files and the package itself are small enough. -/

namespace WaitLocalAgent.PowerPlatform

open Foundation JsonValue

def canonicalText (v : JsonValue) : String := .ofList (v.sortKeys.write ⟨[','], [':']⟩)

theorem canonicalJson_of_floatless {v : JsonValue} (h : v.floatless = true) :
    canonicalJson v = .ok (canonicalText v) := by
  rw [canonicalJson, if_pos (finite_of_floatless h), canonicalText]

theorem utf8ByteSize_canonicalText_le {v : JsonValue} (h : v.floatless = true) :
    (canonicalText v).utf8ByteSize ≤ v.bulk := by
  have hlength : (write ⟨[','], [':']⟩ v.sortKeys).length ≤ v.sortKeys.bulk :=
    length_write_le rfl rfl v.sortKeys
  have hprintable : ∀ c ∈ write ⟨[','], [':']⟩ v.sortKeys, Printable c :=
    printable_write (by decide) (by decide) (floatless_sortKeys h)
  rw [canonicalText, utf8ByteSize_of_printable hprintable, ← bulk_sortKeys]
  exact hlength

theorem textBytes_le_canonicalText (v : JsonValue) :
    v.textBytes ≤ (canonicalText v).utf8ByteSize := by
  have htext := textBytes_le ⟨[','], [':']⟩ v.sortKeys
  rw [textBytes_sortKeys] at htext
  exact htext.trans (length_le_utf8ByteSize _)

/-- A package that is built consists of the fields of its emission and their digest. -/
theorem build_eq_ok {lib : Library} {request : Request} {package : List (String × JsonValue)}
    (h : buildPowerPlatformPackage lib request = .ok package) :
    ∃ reading files serialized, request.read lib = .ok reading ∧
      (Emission.ofArtifacts reading.artifacts).files reading.header reading.publisherUniqueName =
        .ok files ∧
      canonicalJson (.object (packageFields lib reading.header reading.publisherUniqueName
        (.ofArtifacts reading.artifacts) files)) = .ok serialized ∧
      serialized.utf8ByteSize ≤ maxPackageBytes ∧
      package = packageFields lib reading.header reading.publisherUniqueName
        (.ofArtifacts reading.artifacts) files ++
          [("package_digest", .text (lib.digest serialized.toUTF8))] := by
  simp only [buildPowerPlatformPackage, bind_eq_ok] at h
  obtain ⟨reading, hread, h⟩ := h
  simp only [PowerPlatform.package, bind_eq_ok, raiseIf_eq_ok, pure_eq_ok] at h
  obtain ⟨files, hfiles, serialized, hserialized, -, hsize, rfl⟩ := h
  exact ⟨reading, files, serialized, hread, hfiles, hserialized, by omega, rfl⟩

def componentsFile? (path : String) (components : List JsonValue) : Option PackageFile :=
  if components.isEmpty then none
  else some ⟨path, "application/json", canonicalText (.object [("components", .array components)])⟩

namespace Emission

variable (e : Emission)

def contents (header : Header) (publisherUniqueName : String) : List PackageFile :=
  [⟨"Other/Solution.xml", "application/xml",
      solutionXml header.solution header.publisher publisherUniqueName header.publisherPrefix
        e.sortedRootComponents⟩,
    ⟨"Other/Customizations.xml", "application/xml", customizationsXml e.entities e.relationships⟩,
    ⟨"Other/Relationships.xml", "application/xml", relationshipsXml⟩] ++
    (componentsFile? "unsupported/components.json" e.unsupportedJson).toList ++
    (componentsFile? "design_only/components.json" e.designOnlyJson).toList

end Emission

/-- A new file is added if it is small enough. -/
theorem addFile_eq {files : List PackageFile} {path content media : String}
    (hpath : safeRelativePath (.text path) "generated file path" = .ok path)
    (hmedia : mediaType path = .ok media) (hnew : path ∉ files.map PackageFile.path) :
    addFile files path content =
      if maxPackageFileBytes < content.utf8ByteSize then
        .error (.package s!"generated file {path} exceeds the bounded size limit")
      else .ok (files ++ [⟨path, media, content⟩]) := by
  have hcollision : ¬ files.any fun f => f.path = path ∧ f.content ≠ content := by
    intro hany
    obtain ⟨f, hf, hpath⟩ := List.any_eq_true.mp hany
    exact hnew (List.mem_map.mpr ⟨f, hf, (of_decide_eq_true hpath).1⟩)
  have hfilter : files.filter (fun f => f.path ≠ path) = files := by
    rw [List.filter_eq_self]
    intro f hf
    exact decide_eq_true fun h => hnew (List.mem_map.mpr ⟨f, hf, h⟩)
  rw [addFile, hpath, ok_bind]
  by_cases hsize : maxPackageFileBytes < content.utf8ByteSize
  · rw [if_pos hsize, raiseIf, if_pos hsize]
    rfl
  · rw [if_neg hsize, raiseIf_of_not hsize, ok_bind, raiseIf_of_not hcollision, ok_bind, hmedia,
      ok_bind, hfilter]
    rfl

theorem addFile_eq_ok {files result : List PackageFile} {path content media : String}
    (hpath : safeRelativePath (.text path) "generated file path" = .ok path)
    (hmedia : mediaType path = .ok media) (hnew : path ∉ files.map PackageFile.path) :
    addFile files path content = .ok result ↔
      content.utf8ByteSize ≤ maxPackageFileBytes ∧ result = files ++ [⟨path, media, content⟩] := by
  rw [addFile_eq hpath hmedia hnew]
  split
  · rename_i hsize
    simp only [reduceCtorEq, false_iff, not_and]
    omega
  · rename_i hsize
    simp only [Except.ok.injEq, eq_comm (a := files ++ _)]
    exact ⟨fun h => ⟨by omega, h⟩, And.right⟩

theorem floatlessItems_map {α : Type} {f : α → JsonValue} (h : ∀ a, (f a).floatless = true)
    (items : List α) : floatlessItems (items.map f) = true := by
  induction items with
  | nil => rfl
  | cons a items ih => simp [floatlessItems, h, ih]

theorem floatless_unsupportedJson (e : Emission) : floatlessItems e.unsupportedJson = true := by
  refine floatlessItems_map (fun u => ?_) _
  cases h : u.source <;> simp [Unsupported.json, h, floatless, floatlessFields]

theorem floatless_designOnlyJson (e : Emission) : floatlessItems e.designOnlyJson = true :=
  floatlessItems_map (fun _ => rfl) _

theorem addComponents_eq_ok {files result : List PackageFile} {path : String}
    {components : List JsonValue} (hfloatless : floatlessItems components = true)
    (hpath : safeRelativePath (.text path) "generated file path" = .ok path)
    (hmedia : mediaType path = .ok "application/json")
    (hnew : path ∉ files.map PackageFile.path) :
    Emission.addComponents files path components = .ok result ↔
      (∀ f ∈ componentsFile? path components, f.content.utf8ByteSize ≤ maxPackageFileBytes) ∧
        result = files ++ (componentsFile? path components).toList := by
  rw [Emission.addComponents, componentsFile?]
  split
  · simp [eq_comm]
  · have hvalue : (object [("components", array components)]).floatless = true := by
      simp [floatless, floatlessFields, hfloatless]
    rw [canonicalJson_of_floatless hvalue, ok_bind, addFile_eq_ok hpath hmedia hnew]
    simp

theorem generated_path (path : String) (h : path ∈ ["Other/Solution.xml",
    "Other/Customizations.xml", "Other/Relationships.xml", "unsupported/components.json",
    "design_only/components.json"]) (field : String) :
    safeRelativePath (.text path) field = .ok path := by
  have hpaths : ∀ path ∈ ["Other/Solution.xml", "Other/Customizations.xml",
      "Other/Relationships.xml", "unsupported/components.json", "design_only/components.json"],
      Text.strip path = path ∧ path ≠ "" ∧ path.length ≤ maxPathLength ∧
        ¬ path.toList.any (fun c => c.toNat < 32 || c.toNat == 127) ∧
        ¬ (path.toList.head? = some '/' ∨ '\\' ∈ path.toList ∨
          (posixParts path).any fun part => ["", ".", ".."].contains part) ∧
        String.intercalate "/" (posixParts path) = path := by
    decide
  obtain ⟨hstrip, hne, hlength, hcontrol, hunsafe, hparts⟩ := hpaths path h
  rw [safeRelativePath, text, hstrip, if_neg (by
    rintro (h | h | h)
    · exact hne h
    · omega
    · exact hcontrol h), ok_bind, raiseIf_of_not hunsafe, ok_bind, hparts]
  rfl

section Contents

variable {e : Emission} {header : Header} {uniqueName : String}

theorem paths_contents : ∀ f ∈ e.contents header uniqueName, f.path ∈ ["Other/Solution.xml",
    "Other/Customizations.xml", "Other/Relationships.xml", "unsupported/components.json",
    "design_only/components.json"] := by
  intro f hf
  simp only [Emission.contents, componentsFile?, List.mem_append, List.mem_cons,
    List.not_mem_nil, or_false, Option.mem_toList] at hf
  rcases hf with ((rfl | rfl | rfl) | hf) | hf
  · simp
  · simp
  · simp
  all_goals
    split at hf
    · cases hf
    · cases hf
      simp

/-- The files of an emission are its contents, as far as each of them is small enough. -/
theorem files_eq_ok {files : List PackageFile} : e.files header uniqueName = .ok files ↔
    (∀ f ∈ e.contents header uniqueName, f.content.utf8ByteSize ≤ maxPackageFileBytes) ∧
      files = (e.contents header uniqueName).insertionSort fun f g => f.path ≤ g.path := by
  simp only [Emission.files, bind_eq_ok]
  constructor
  · rintro ⟨solution, hsolution, customizations, hcustomizations, relationships, hrelationships,
      unsupported, hunsupported, design, hdesign, -, -, hfiles⟩
    rw [addFile_eq_ok (generated_path _ (by simp) _) rfl (by simp)] at hsolution
    obtain ⟨hsolution, rfl⟩ := hsolution
    rw [addFile_eq_ok (generated_path _ (by simp) _) rfl (by simp)] at hcustomizations
    obtain ⟨hcustomizations, rfl⟩ := hcustomizations
    rw [addFile_eq_ok (generated_path _ (by simp) _) rfl (by simp)] at hrelationships
    obtain ⟨hrelationships, rfl⟩ := hrelationships
    rw [addComponents_eq_ok (floatless_unsupportedJson e) (generated_path _ (by simp) _) rfl
      (by simp)] at hunsupported
    obtain ⟨hunsupported, rfl⟩ := hunsupported
    rw [addComponents_eq_ok (floatless_designOnlyJson e) (generated_path _ (by simp) _) rfl
      (by simp [componentsFile?])] at hdesign
    obtain ⟨hdesign, rfl⟩ := hdesign
    refine ⟨?_, (pure_eq_ok.mp hfiles).symm⟩
    intro f hf
    simp only [Emission.contents, List.mem_append, List.mem_cons, List.not_mem_nil, or_false,
      Option.mem_toList] at hf
    rcases hf with ((rfl | rfl | rfl) | hf) | hf
    · exact hsolution
    · exact hcustomizations
    · exact hrelationships
    · exact hunsupported f hf
    · exact hdesign f hf
  · rintro ⟨hsmall, rfl⟩
    simp only [Emission.contents, List.mem_append, List.mem_cons, List.not_mem_nil, or_false,
      Option.mem_toList, or_imp, forall_and, forall_eq] at hsmall
    obtain ⟨⟨⟨hsolution, hcustomizations, hrelationships⟩, hunsupported⟩, hdesign⟩ := hsmall
    refine ⟨_, (addFile_eq_ok (generated_path _ (by simp) _) rfl (by simp)).mpr ⟨hsolution, rfl⟩,
      _, (addFile_eq_ok (generated_path _ (by simp) _) rfl (by simp)).mpr ⟨hcustomizations, rfl⟩,
      _, (addFile_eq_ok (generated_path _ (by simp) _) rfl (by simp)).mpr ⟨hrelationships, rfl⟩,
      _, (addComponents_eq_ok (floatless_unsupportedJson e) (generated_path _ (by simp) _) rfl
        (by simp)).mpr ⟨hunsupported, rfl⟩,
      _, (addComponents_eq_ok (floatless_designOnlyJson e) (generated_path _ (by simp) _) rfl
        (by simp [componentsFile?])).mpr ⟨hdesign, rfl⟩,
      (), raiseIf_of_not ?_, rfl⟩
    simp only [componentsFile?, maxPackageFiles]
    split <;> split <;> simp

theorem floatless_packageFields (lib : Library) (files : List PackageFile) :
    (object (packageFields lib header uniqueName e files)).floatless = true := by
  have hfiles := floatlessItems_map (f := PackageFile.json lib) (fun _ => rfl) files
  have hcommand := floatlessItems_map (f := JsonValue.text) (fun _ => rfl)
    (packCommand lib header.output header.solution)
  simp [packageFields, floatless, floatlessFields, floatlessItems, hfiles, hcommand,
    floatless_unsupportedJson, floatless_designOnlyJson]

theorem bulk_packageFields (lib : Library) (files : List PackageFile) :
    (object (packageFields lib header uniqueName e files)).bulk + 1 =
      (object (packageFields lib header uniqueName e [])).bulk +
        (files.map fun f => (f.json lib).bulk + 1).sum + (writeInt files.length).length := by
  have hdigit : (writeInt ((0 : ℕ) : ℤ)).length = 1 := by decide
  simp only [packageFields, bulk, bulkFields, bulkItems_eq, List.map_map, List.map_nil,
    List.sum_nil, List.length_nil, hdigit, Function.comp_def]
  omega

theorem bulk_json (lib : Library) (f : PackageFile) : (f.json lib).bulk + 1 =
    6 * f.content.utf8ByteSize + (6 * (f.path.utf8ByteSize + f.mediaType.utf8ByteSize +
      (lib.digest f.content.toUTF8).utf8ByteSize) + 189) := by
  have hkeys : "path".utf8ByteSize = 4 ∧ "media_type".utf8ByteSize = 10 ∧
      "digest".utf8ByteSize = 6 ∧ "content".utf8ByteSize = 7 := by decide
  simp only [PackageFile.json, bulk, bulkFields, hkeys]
  omega

theorem sum_bulk_le {lib : Library} {n : ℕ} {files : List PackageFile}
    (h : ∀ f ∈ files, (f.json lib).bulk + 1 ≤ n) :
    (files.map fun f => (f.json lib).bulk + 1).sum ≤ files.length * n := by
  induction files with
  | nil => simp
  | cons f files ih =>
      have hf := h f List.mem_cons_self
      have hfiles := ih fun g hg => h g (List.mem_cons_of_mem f hg)
      simp only [List.map_cons, List.sum_cons, List.length_cons, Nat.add_one_mul]
      omega

end Contents

/-- A request is built into a package if its files and the package are small enough. -/
theorem build_of_small {lib : Library} {request : Request} {reading : Reading}
    (hread : request.read lib = .ok reading)
    (hfiles : ∀ f ∈ (Emission.ofArtifacts reading.artifacts).contents reading.header
      reading.publisherUniqueName, f.content.utf8ByteSize ≤ maxPackageFileBytes)
    (hsize : (object (packageFields lib reading.header reading.publisherUniqueName
      (.ofArtifacts reading.artifacts) (((Emission.ofArtifacts reading.artifacts).contents
        reading.header reading.publisherUniqueName).insertionSort
          fun f g => f.path ≤ g.path))).bulk ≤ maxPackageBytes) :
    ∃ package, buildPowerPlatformPackage lib request = .ok package := by
  have hserialized := utf8ByteSize_canonicalText_le (@floatless_packageFields
    (.ofArtifacts reading.artifacts) reading.header reading.publisherUniqueName lib
      (((Emission.ofArtifacts reading.artifacts).contents reading.header
        reading.publisherUniqueName).insertionSort fun f g => f.path ≤ g.path))
  simp only [buildPowerPlatformPackage, hread, ok_bind, package, bind_eq_ok, pure_eq_ok]
  refine ⟨_, _, files_eq_ok.mpr ⟨hfiles, rfl⟩, _,
    canonicalJson_of_floatless (floatless_packageFields lib _), (), raiseIf_of_not ?_, rfl⟩
  omega

theorem utf8ByteSize_joinLines (lines : List String) :
    (joinLines lines).utf8ByteSize = (lines.map fun line => line.utf8ByteSize + 1).sum := by
  rw [joinLines, utf8ByteSize_ofList]
  induction lines with
  | nil => rfl
  | cons line lines ih =>
      have hbreak : '\n'.utf8Size = 1 := by decide
      simp only [List.flatMap_cons, List.map_append, List.sum_append, ih, List.map_cons,
        List.sum_cons, List.map_nil, List.sum_nil, ← utf8ByteSize_eq, hbreak]
      omega

/-! ### A request

An artifact with two tables of one name, the first of which has a lookup column without a target
entity. -/

/-- The library on the texts of the request: the digests are those of the texts of each length. -/
def exampleLibrary : Library where
  str _ := ""
  casefold := Text.lower
  uuid5 _ := "78f85570-2327-5288-a405-b6140697a77f"
  sha256 bytes :=
    if bytes.size = 3864 then
      "e3a0944887c90ec25f5c61a28e78c115e76799bef4ae7d8e92ebb9be438d90fd"
    else if bytes.size = 120 then
      "99e725cf031c662bdcbf99c5d79e9b11b20963dc75fee72b556245e99f7dfe8f"
    else if bytes.size = 4543 then
      "27d1ab7e9a6d705b532d4ba08b396b1e756dd131eda5fbd77d12d0a48122b863"
    else if bytes.size = 234 then
      "6d2cbfd36e3b8deac00951277445ac4cc4043a66ad90cefce2db59ee7cd33203"
    else "aa2fd9f5a68e298ab06c0de35400800f004c575d895423aabca254a760357a51"
  windowsParts s := [s]
  zipPath output solution := s!"{output}/{solution}.zip"
  floatRepr s := s

def exampleTable (columns : List JsonValue) : JsonValue :=
  .object [("logical_name", .text "wait_a"), ("primary_name_column", .text "name"),
    ("columns", .array (.object [("logical_name", .text "name")] :: columns))]

def exampleRequest : Request where
  clientId := .text "acme"
  solutionName := .text "demo"
  publisherName := .text "Demo"
  publisherPrefix := .text "wait"
  outputDirectory := .text "out"
  artifacts := [.object [
    ("format", .text "wait-local-agent.power-apps-artifact"),
    ("dataverse", .object [("tables", .array [
      exampleTable [.object [("logical_name", .text "ring_bearer"), ("type", .text "Lookup")]],
      exampleTable []])])]]
  connectorArtifacts := []
  reviewArtifacts := none

def exampleHeader : Header := ⟨"acme", "demo", "Demo", "wait", "out"⟩

def exampleEntity : Entity := ⟨"wait_a", "wait_a", [⟨"name", "name", .string 100, false⟩], "name"⟩

def exampleEmission : Emission where
  entities := [exampleEntity, exampleEntity]
  relationships := []
  rootComponents := [⟨"1", "wait_a"⟩, ⟨"1", "wait_a"⟩]
  unsupported := []
  designOnly := [⟨"78f85570-2327-5288-a405-b6140697a77f", "entities/wait_a",
    "wait-local-agent.power-apps-artifact",
    "relationship for lookup column ring_bearer was omitted because target_entity is missing"⟩]
  emittedClasses := ["publisher", "solution_manifest", "entity", "entity"]
  importCompleteClasses := ["publisher", "solution_manifest", "entity", "entity"]
  artifactClasses := ["entity", "entity"]

theorem read_example : ∃ reading, exampleRequest.read exampleLibrary = .ok reading ∧
    reading.header = exampleHeader ∧ reading.publisherUniqueName = "demo" ∧
      Emission.ofArtifacts reading.artifacts = exampleEmission := by
  have hread : (exampleRequest.read exampleLibrary).map (fun r =>
      (r.header, r.publisherUniqueName, Emission.ofArtifacts r.artifacts)) =
        .ok (exampleHeader, "demo", exampleEmission) := by
    decide +kernel
  obtain ⟨reading, hreading, hparts⟩ := map_eq_ok.mp hread
  simp only [Prod.mk.injEq] at hparts
  exact ⟨reading, hreading, hparts⟩

theorem contents_example : ∀ f ∈ exampleEmission.contents exampleHeader "demo",
    f.content.utf8ByteSize ≤ 4600 := by
  intro f hf
  simp only [Emission.contents, List.mem_append, List.mem_cons, List.not_mem_nil, or_false,
    Option.mem_toList] at hf
  rcases hf with ((rfl | rfl | rfl) | hf) | hf
  · simp only [solutionXml, utf8ByteSize_joinLines]
    decide +kernel
  · simp only [customizationsXml, utf8ByteSize_joinLines]
    decide +kernel
  · simp only [relationshipsXml, utf8ByteSize_joinLines]
    decide
  · cases hf
  · cases hf
    have hsize := utf8ByteSize_canonicalText_le
      (v := object [("components", array exampleEmission.designOnlyJson)]) rfl
    have hbulk : (object [("components", array exampleEmission.designOnlyJson)]).bulk ≤ 4600 := by
      decide
    exact hsize.trans hbulk

theorem bulk_example : ∀ f ∈ exampleEmission.contents exampleHeader "demo",
    (f.json exampleLibrary).bulk + 1 ≤ 28600 := by
  intro f hf
  have hcontent := contents_example f hf
  have hpath : ∀ path ∈ ["Other/Solution.xml", "Other/Customizations.xml",
      "Other/Relationships.xml", "unsupported/components.json", "design_only/components.json"],
      path.utf8ByteSize ≤ 30 := by
    decide
  have hmedia : f.mediaType.utf8ByteSize ≤ 20 := by
    simp only [Emission.contents, List.mem_append, List.mem_cons, List.not_mem_nil, or_false,
      Option.mem_toList] at hf
    rcases hf with ((rfl | rfl | rfl) | hf) | hf
    · decide
    · decide
    · decide
    · cases hf
    · cases hf
      decide
  have hprefix : "sha256:".utf8ByteSize = 7 := by decide
  have hdigest : (exampleLibrary.digest f.content.toUTF8).utf8ByteSize = 71 := by
    have hsha : (exampleLibrary.sha256 f.content.toUTF8).utf8ByteSize = 64 := by
      simp only [exampleLibrary]
      split
      · decide
      split
      · decide
      split
      · decide
      split
      · decide
      · decide
    have hdigest : exampleLibrary.digest f.content.toUTF8 =
        "sha256:" ++ exampleLibrary.sha256 f.content.toUTF8 :=
      rfl
    rw [hdigest, String.utf8ByteSize_append, hsha, hprefix]
  have := hpath f.path (paths_contents f hf)
  rw [bulk_json]
  omega

theorem build_example : ∃ package,
    buildPowerPlatformPackage exampleLibrary exampleRequest = .ok package := by
  obtain ⟨reading, hread, hheader, hname, hemission⟩ := read_example
  refine build_of_small hread ?_ ?_
  · rw [hheader, hname, hemission]
    intro f hf
    have := contents_example f hf
    simp only [maxPackageFileBytes]
    omega
  · rw [hheader, hname, hemission, maxPackageBytes]
    have hbulk := @bulk_packageFields exampleEmission exampleHeader "demo" exampleLibrary
      ((exampleEmission.contents exampleHeader "demo").insertionSort fun f g => f.path ≤ g.path)
    have hsum := sum_bulk_le fun f hf => bulk_example f
      ((List.perm_insertionSort (fun f g : PackageFile => f.path ≤ g.path)
        (exampleEmission.contents exampleHeader "demo")).mem_iff.mp hf)
    have hlength : (exampleEmission.contents exampleHeader "demo").length = 4 := rfl
    rw [List.length_insertionSort, hlength] at hbulk hsum
    have hempty : (object (packageFields exampleLibrary exampleHeader "demo" exampleEmission
        [])).bulk ≤ 20000 := by
      decide
    have hdigit : (writeInt ((4 : ℕ) : ℤ)).length = 1 := by decide
    omega

end WaitLocalAgent.PowerPlatform
