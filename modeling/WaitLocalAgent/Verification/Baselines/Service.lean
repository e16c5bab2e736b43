import WaitLocalAgent.Verification.Baselines.Phantoms
import WaitLocalAgent.Verification.Baselines.Versions

/-! # Baselines of an unchanged client

The phantoms of the service come from the keys of the graph and of the assets, which are made of
names and ids that redaction may take for secrets. -/

namespace WaitLocalAgent.Baselines

open Foundation JsonValue Redaction

variable {lib : BaselineLibrary} {inv : Inventory} {provider : Provider} {clientId : ClientId}

/-! ### Coverage of an observation -/

theorem coverageStatus_instance (status : Tenancy.ConnectorInstanceStatus) :
    coverageStatus (instanceStatusText status) ≠ .ready := by
  cases status <;> decide

/-- An instance is never ready: no status of the table is one of the coverage. -/
theorem instanceStatus_ne_ready (row : Tenancy.ConnectorInstance)
    (cursors : List Polling.SyncCursor) : instanceStatus row cursors ≠ .ready := by
  have hstatus := coverageStatus_instance row.status
  rw [instanceStatus]
  dsimp only
  rw [if_pos hstatus]
  exact hstatus

theorem aggregateCoverage_ne_ready {statuses : List CoverageStatus}
    (h : ∃ status ∈ statuses, status ≠ .ready) : aggregateCoverage statuses ≠ .ready := by
  obtain ⟨status, hmem, hne⟩ := h
  have hall : statuses.all (· = .ready) = false := by
    rw [← Bool.not_eq_true, List.all_eq_true]
    exact fun hall => hne (by simpa using hall status hmem)
  rw [aggregateCoverage, hall, Bool.and_false, if_neg Bool.false_ne_true]
  split
  · decide
  · split
    · decide
    · split <;> decide

theorem Covers.exists {prefixes : List String} {key : String} (h : Covers prefixes key) :
    ∃ start ∈ prefixes, start.toList <+: key.toList := by
  obtain ⟨start, hstart, hprefix⟩ := List.any_eq_true.mp h
  exact ⟨start, hstart, List.isPrefixOf_iff_prefix.mp hprefix⟩

/-- The entries of the instances belong to the connectors alone. -/
theorem not_covers_connector (id : String) : ∀ prefixes ∈ [["microsoft:", "microsoft_posture"],
    ["environment_graph"], ["canonical_assets"]], ¬ Covers prefixes ("connector:" ++ id) := by
  have hchars : ("connector:" ++ id).toList.take 2 = ['c', 'o'] := by
    rw [String.toList_append, List.take_append_of_le_length (by decide)]
    decide
  have hother : ∀ prefixes ∈ [["microsoft:", "microsoft_posture"], ["environment_graph"],
      ["canonical_assets"]], ∀ start ∈ prefixes, ¬ start.toList.take 2 <+: ['c', 'o'] := by decide
  intro prefixes hprefixes hcovers
  obtain ⟨start, hstart, hprefix⟩ := hcovers.exists
  exact hother prefixes hprefixes start hstart (hchars ▸ hprefix.take 2)

theorem keys_posture (lib : BaselineLibrary) (provider : Provider) :
    ((lib.posture provider).1.map Prod.fst) ⊆
      postureSources.map ("microsoft:" ++ ·) ++ ["microsoft_posture"] := by
  cases provider with
  | notConfigured | failing => simp [BaselineLibrary.posture]
  | answering posture =>
      simp [BaselineLibrary.posture, Function.comp_def]

theorem posture_keys_facts : ∀ key ∈ postureSources.map ("microsoft:" ++ ·) ++
    ["microsoft_posture"],
    isSensitiveKey key = false ∧ ¬ Covers ["environment_graph"] key ∧
      ¬ Covers ["canonical_assets"] key := by
  unfold Covers
  decide

/-- The entries of the coverage: those of the posture, of the store and of the instances. -/
theorem mem_sourceCoverage {entry : String × CoverageStatus}
    (h : entry ∈ (lib.observe inv provider clientId).sourceCoverage) :
    (entry ∈ (lib.posture provider).1) ∨
      (entry = ("environment_graph", .ready) ∨ entry = ("canonical_assets", .ready)) ∨
      (∃ id, entry.1 = "connector:" ++ id) ∨ entry.1 = "connector_readiness" := by
  simp only [BaselineLibrary.observe, List.mem_append, List.mem_cons, List.not_mem_nil, or_false,
    List.mem_map] at h
  rcases h with ((h | h) | ⟨status, -, rfl⟩) | rfl
  · exact .inl h
  · exact .inr (.inl h)
  · exact .inr (.inr (.inl ⟨status.1, rfl⟩))
  · exact .inr (.inr (.inr rfl))

theorem covers_connector_readiness : ∀ prefixes ∈ [["microsoft:", "microsoft_posture"],
    ["environment_graph"], ["canonical_assets"]], ¬ Covers prefixes "connector_readiness" := by
  unfold Covers
  decide

theorem store_keys_facts : ∀ key ∈ ["environment_graph", "canonical_assets"],
    isSensitiveKey key = false ∧ ¬ Covers ["microsoft:", "microsoft_posture"] key := by
  unfold Covers
  decide

/-- Every entry of a domain other than the connectors has a key that redaction leaves alone. -/
theorem plainKey_of_covers {prefixes : List String} (hprefixes : prefixes ∈
      [["microsoft:", "microsoft_posture"], ["environment_graph"], ["canonical_assets"]])
    {entry : String × CoverageStatus}
    (hentry : entry ∈ (lib.observe inv provider clientId).sourceCoverage)
    (hcovers : Covers prefixes entry.1) : isSensitiveKey entry.1 = false := by
  rcases mem_sourceCoverage hentry with hposture | hstore | ⟨id, hid⟩ | hreadiness
  · exact (posture_keys_facts _ (keys_posture lib provider (List.mem_map_of_mem hposture))).1
  · rcases hstore with rfl | rfl
    · exact (store_keys_facts _ (by simp)).1
    · exact (store_keys_facts _ (by simp)).1
  · exact absurd (hid ▸ hcovers) (not_covers_connector id prefixes hprefixes)
  · exact absurd (hreadiness ▸ hcovers) (covers_connector_readiness prefixes hprefixes)

/-- The graph and the assets are always read. -/
theorem not_hasGap_store {domain : String × List String} (hdomain : domain ∈
      [("environment_graph", ["environment_graph"]), ("canonical_assets", ["canonical_assets"])]) :
    ¬ HasGap (lib.observe inv provider clientId).sourceCoverage domain.1 := by
  have hmem : domain ∈ sectionCoveragePrefixes := by
    simp only [List.mem_cons, List.not_mem_nil, or_false] at hdomain
    rcases hdomain with rfl | rfl <;> decide
  have hprefixes : domain.2 ∈ [["microsoft:", "microsoft_posture"], ["environment_graph"],
      ["canonical_assets"]] := by
    simp only [List.mem_cons, List.not_mem_nil, or_false] at hdomain
    rcases hdomain with rfl | rfl <;> decide
  rw [hasGap_iff hmem]
  rintro ⟨entry, hentry, hcovers, hready⟩
  rcases mem_sourceCoverage hentry with hposture | hstore | ⟨id, hid⟩ | hreadiness
  · have hfacts := posture_keys_facts _ (keys_posture lib provider (List.mem_map_of_mem hposture))
    simp only [List.mem_cons, List.not_mem_nil, or_false] at hdomain
    rcases hdomain with rfl | rfl
    · exact hfacts.2.1 hcovers
    · exact hfacts.2.2 hcovers
  · rcases hstore with rfl | rfl <;> exact hready rfl
  · exact not_covers_connector id _ hprefixes (hid ▸ hcovers)
  · exact covers_connector_readiness _ hprefixes (hreadiness ▸ hcovers)

theorem covers_self : ∀ domain ∈ sectionCoveragePrefixes, Covers domain.2 domain.1 := by
  unfold Covers
  decide

theorem hasGap_connectors :
    HasGap (lib.observe inv provider clientId).sourceCoverage "connector_readiness" := by
  have hdomain : ("connector_readiness", ["connector:", "connector_readiness"]) ∈
      sectionCoveragePrefixes := by decide
  refine ⟨_, hdomain, ("connector_readiness", _), List.mem_append_right _ List.mem_cons_self,
    covers_self _ hdomain, ?_⟩
  refine aggregateCoverage_ne_ready ?_
  split
  · exact ⟨.notConfigured, by simp, by decide⟩
  · next hne =>
      obtain ⟨status, hstatus⟩ := List.exists_mem_of_ne_nil _ (by simpa using hne)
      refine ⟨status.2, List.mem_map_of_mem hstatus, ?_⟩
      rw [BaselineLibrary.connectorStatuses, List.mem_map] at hstatus
      obtain ⟨row, _, hrow⟩ := hstatus
      rw [← hrow]
      dsimp only
      exact instanceStatus_ne_ready row _

theorem covered_observe : ∀ domain ∈ sectionCoveragePrefixes,
    ∃ entry ∈ (lib.observe inv provider clientId).sourceCoverage, Covers domain.2 entry.1 := by
  intro domain hdomain
  have hself := covers_self domain hdomain
  suffices hentry : ∃ status, (domain.1, status) ∈
      (lib.observe inv provider clientId).sourceCoverage by
    obtain ⟨status, hstatus⟩ := hentry
    exact ⟨_, hstatus, hself⟩
  simp only [sectionCoveragePrefixes, List.mem_cons, List.not_mem_nil, or_false] at hdomain
  rcases hdomain with rfl | rfl | rfl | rfl
  · have hposture : ∃ status, ("microsoft_posture", status) ∈ (lib.posture provider).1 := by
      cases provider with
      | notConfigured | failing => exact ⟨_, List.mem_cons_self⟩
      | answering posture =>
          simp only [BaselineLibrary.posture]
          exact ⟨_, List.mem_append_right _ List.mem_cons_self⟩
    obtain ⟨status, hstatus⟩ := hposture
    exact ⟨status, by simp [BaselineLibrary.observe, hstatus]⟩
  · exact ⟨.ready, by simp [BaselineLibrary.observe]⟩
  · exact ⟨.ready, by simp [BaselineLibrary.observe]⟩
  · exact ⟨_, List.mem_append_right _ List.mem_cons_self⟩

/-! ### Sections of an observation -/

theorem mem_groupCounts {values : List String} {key : String} {value : JsonValue} :
    (key, value) ∈ groupCounts values ↔ key ∈ values ∧ value = .int (values.count key) := by
  rw [groupCounts, (byKey_perm _).mem_iff]
  simp [eq_comm]

variable {w : WordClass}

/-- A count is not `[redacted]`, so that redaction changes it under every sensitive name. -/
theorem unaffected_groupCounts_iff {values : List String} :
    unaffected w (.object (groupCounts values)) = true ↔
      ∀ value ∈ values, isSensitiveKey value = false := by
  have hcount : ∀ key (n : ℤ), unaffectedEntry w key (.int n) = !isSensitiveKey key := by
    intro key n
    rw [unaffectedEntry]
    split
    · next hkey => simp [hkey, isRedacted]
    · next hkey => simp [hkey, unaffected]
  rw [unaffected_object_iff]
  constructor
  · intro h value hvalue
    have hentry := h value _ (mem_groupCounts.mpr ⟨hvalue, rfl⟩)
    simpa [hcount] using hentry
  · intro h key value hmem
    obtain ⟨hkey, rfl⟩ := mem_groupCounts.mp hmem
    simp [hcount, h key hkey]

theorem unaffectedEntry_of_plain {key : String} (hkey : isSensitiveKey key = false)
    (value : JsonValue) : unaffectedEntry w key value = unaffected w value := by
  rw [unaffectedEntry, if_neg (by simp [hkey])]

theorem unaffected_environmentGraph_iff {refs : List OperationalGraph.EntityRef} :
    unaffected w (BaselineLibrary.environmentGraph refs) = true ↔
      ∀ ref ∈ refs, isSensitiveKey ref.entityType = false ∧
        isSensitiveKey ref.sourceSystem = false := by
  have hnames : isSensitiveKey "entity_type_counts" = false ∧
      isSensitiveKey "source_counts" = false := by decide
  rw [BaselineLibrary.environmentGraph, unaffected_object_iff]
  simp only [List.mem_cons, Prod.mk.injEq, List.not_mem_nil, or_false, or_imp, and_imp, forall_and,
    forall_eq_apply_imp_iff, forall_eq]
  rw [unaffectedEntry_of_plain hnames.1, unaffectedEntry_of_plain hnames.2,
    unaffected_groupCounts_iff, unaffected_groupCounts_iff]
  simp

/-- What an asset's names must be like for redaction to leave them. -/
def PlainAsset (w : WordClass) (asset : Assets.CanonicalAsset) : Prop :=
  isSensitiveKey asset.assetType = false ∧ (asset.canonicalId ≠ "" →
    isSensitiveKey asset.canonicalId = false ∧ redactText w asset.assetType = asset.assetType)

theorem unaffectedEntry_asset {key assetType : String} :
    unaffectedEntry w key (.object [("asset_type", .text assetType)]) = true ↔
      isSensitiveKey key = false ∧ redactText w assetType = assetType := by
  have hname : isSensitiveKey "asset_type" = false := by decide
  rw [unaffectedEntry]
  split
  · next hkey => simp [hkey, isRedacted]
  · next hkey => simp [hkey, hname, unaffected, unaffectedFields]

theorem unaffected_canonicalAssets_iff {assets : List Assets.CanonicalAsset} :
    unaffected w (BaselineLibrary.canonicalAssets assets) = true ↔
      ∀ asset ∈ assets, PlainAsset w asset := by
  have hnames : isSensitiveKey "asset_type_counts" = false ∧ isSensitiveKey "assets" = false := by
    decide
  rw [BaselineLibrary.canonicalAssets, unaffected_object_iff]
  simp only [List.mem_cons, Prod.mk.injEq, List.not_mem_nil, or_false, or_imp, and_imp, forall_and,
    forall_eq_apply_imp_iff, forall_eq]
  rw [unaffectedEntry_of_plain hnames.1, unaffectedEntry_of_plain hnames.2,
    unaffected_groupCounts_iff, unaffected_object_iff]
  have hassets :
      (∀ key value, (key, value) ∈ (assets.filter fun asset => asset.canonicalId ≠ "").map
      (fun asset => (asset.canonicalId, JsonValue.object [("asset_type", .text asset.assetType)])) →
      unaffectedEntry w key value = true) ↔ ∀ asset ∈ assets, asset.canonicalId ≠ "" →
        isSensitiveKey asset.canonicalId = false ∧ redactText w asset.assetType =
          asset.assetType := by
    constructor
    · intro h asset hasset hid
      refine unaffectedEntry_asset.mp (h _ _ (List.mem_map.mpr ⟨asset, ?_, rfl⟩))
      simpa using ⟨hasset, hid⟩
    · intro h key value hmem
      obtain ⟨asset, hasset, heq⟩ := List.mem_map.mp hmem
      cases heq
      rw [List.mem_filter, decide_eq_true_eq] at hasset
      exact unaffectedEntry_asset.mpr (h asset hasset.1 hasset.2)
  rw [hassets]
  simp [PlainAsset, forall_and]

def Figure (lib : BaselineLibrary) (value : JsonValue) : Prop :=
  value = .null ∨ (∃ n, value = .int n) ∨ ∃ score, value = .float (lib.floats.repr score)

theorem posture_summary (lib : BaselineLibrary) (provider : Provider) :
    ((lib.posture provider).2.map Prod.fst).Sublist (postureCounterSources.map Prod.fst) ∧
      ∀ entry ∈ (lib.posture provider).2, Figure lib entry.2 := by
  cases provider with
  | notConfigured | failing => simp [BaselineLibrary.posture]
  | answering posture =>
      simp only [BaselineLibrary.posture]
      generalize postureCounterSources = counters
      induction counters with
      | nil => simp
      | cons counter counters ih =>
          obtain ⟨hkeys, hfigures⟩ := ih
          rw [List.filterMap_cons]
          split
          · next hnone => exact ⟨hkeys.cons _, hfigures⟩
          · next entry hsome =>
              split at hsome
              · cases hsome
                refine ⟨hkeys.cons_cons _, List.forall_mem_cons.mpr ⟨?_, hfigures⟩⟩
                dsimp only
                split
                · cases posture.secureScore with
                  | none => exact .inl rfl
                  | some score => exact .inr (.inr ⟨score, rfl⟩)
                · exact .inr (.inl ⟨_, rfl⟩)
              · cases hsome

theorem Figure.facts {value : JsonValue} (h : Figure lib value) :
    distinct value = true ∧ value.exact lib.floats = true ∧ unaffected lib.words value = true := by
  rcases h with rfl | ⟨n, rfl⟩ | ⟨score, rfl⟩
  · exact ⟨rfl, rfl, rfl⟩
  · exact ⟨rfl, rfl, rfl⟩
  · exact ⟨rfl, exact_float lib.floats score, rfl⟩

theorem counters_facts : (postureCounterSources.map Prod.fst).Nodup ∧
    ∀ key ∈ postureCounterSources.map Prod.fst, isSensitiveKey key = false := by decide

theorem unaffected_posture (lib : BaselineLibrary) (provider : Provider) :
    unaffected lib.words (.object [("summary", .object (lib.posture provider).2)]) = true := by
  obtain ⟨hkeys, hfigures⟩ := posture_summary lib provider
  have hname : isSensitiveKey "summary" = false := by decide
  rw [unaffected_object_iff]
  simp only [List.mem_cons, Prod.mk.injEq, List.not_mem_nil, or_false, and_imp,
    forall_eq_apply_imp_iff,
    forall_eq]
  rw [unaffectedEntry_of_plain hname, unaffected_object_iff]
  intro key value hmem
  have hkey := counters_facts.2 key (hkeys.subset (List.mem_map_of_mem hmem))
  rw [unaffectedEntry_of_plain hkey]
  exact (hfigures _ hmem).facts.2.2

/-- An object whose keys are distinct, and whose values have neither two equal keys nor a float that
is not given by its `repr`. -/
def Regular (floats : FloatRepr) (fields : List (String × JsonValue)) : Prop :=
  (fields.map Prod.fst).Nodup ∧ ∀ entry ∈ fields,
    distinct entry.2 = true ∧ entry.2.exact floats = true

variable {floats : FloatRepr}

theorem Regular.object {fields : List (String × JsonValue)}
    (h : Regular floats fields) :
    distinct (.object fields) = true ∧ (JsonValue.object fields).exact floats = true := by
  refine ⟨distinct_object_iff.mpr ⟨h.1, fun entry hentry => (h.2 entry hentry).1⟩, ?_⟩
  rw [exact, floatsMeet, floatsMeetFields_eq_all, List.all_eq_true]
  exact fun entry hentry => (h.2 entry hentry).2

theorem Regular.set {fields : List (String × JsonValue)} (h : Regular floats fields)
    (key : String) {value : JsonValue} (hvalue : distinct value = true ∧
      value.exact floats = true) :
    Regular floats (JsonValue.set fields key value) := by
  constructor
  · rw [keys_set]
    split
    · exact h.1
    · next hnew => exact List.Nodup.append h.1 (List.nodup_singleton key) (by simpa using hnew)
  · intro entry hentry
    rw [JsonValue.set] at hentry
    split at hentry
    · obtain ⟨original, horiginal, rfl⟩ := List.mem_map.mp hentry
      split
      · exact hvalue
      · exact h.2 original horiginal
    · rcases List.mem_append.mp hentry with hentry | hentry
      · exact h.2 entry hentry
      · rw [List.mem_singleton.mp hentry]
        exact hvalue

theorem regular_map {α : Type} {rows : List α} {key : α → String}
    {value : α → JsonValue} (hkeys : (rows.map key).Nodup)
    (hvalues : ∀ row ∈ rows, distinct (value row) = true ∧ (value row).exact floats = true) :
    Regular floats (rows.map fun row => (key row, value row)) := by
  refine ⟨by simpa [Function.comp_def] using hkeys, fun entry hentry => ?_⟩
  obtain ⟨row, hrow, rfl⟩ := List.mem_map.mp hentry
  exact hvalues row hrow

theorem regular_groupCounts (floats : FloatRepr) (values : List String) :
    Regular floats (groupCounts values) := by
  have hperm := byKey_perm
      (values.dedup.map fun value => (value, JsonValue.int (values.count value)))
  have hregular : Regular floats
      (values.dedup.map fun value => (value, JsonValue.int (values.count value))) :=
    regular_map (by simpa using List.nodup_dedup values) fun value _ => ⟨rfl, rfl⟩
  exact ⟨(hperm.map _).nodup_iff.mpr hregular.1,
    fun entry hentry => hregular.2 entry (hperm.mem_iff.mp hentry)⟩

theorem regular_pair {key key' : String} {value value' : JsonValue}
    (hkeys : key ≠ key') (h : distinct value = true ∧ value.exact floats = true)
    (h' : distinct value' = true ∧ value'.exact floats = true) :
    Regular floats [(key, value), (key', value')] := by
  refine ⟨by simpa using hkeys, ?_⟩
  simpa using ⟨h, h'⟩

theorem regular_canonicalAssets :
    Regular floats
      (((inv.listCanonicalAssets clientId).filter fun asset => asset.canonicalId ≠ "").map
      fun asset =>
        (asset.canonicalId, JsonValue.object [("asset_type", .text asset.assetType)])) := by
  refine regular_map ?_ fun asset _ => ⟨rfl, rfl⟩
  refine List.Nodup.sublist (List.filter_sublist.map _) ?_
  rw [Inventory.listCanonicalAssets, ((List.perm_insertionSort _ _).map _).nodup_iff]
  exact inv.unique clientId

theorem nodup_connectorStatuses :
    ((BaselineLibrary.connectorStatuses inv clientId).map Prod.fst).Nodup := by
  have hids : (inv.connectorInstances.rows.map fun row => row.connectorInstanceId.val).Nodup := by
    have hmap := List.Nodup.map Subtype.val_injective inv.connectorInstances.nodup
    rwa [List.map_map] at hmap
  rw [BaselineLibrary.connectorStatuses, List.map_map]
  refine List.Nodup.sublist (List.filter_sublist.map _) ?_
  exact ((List.perm_insertionSort _ _).map _).nodup_iff.mpr hids

theorem regular_cursors (cursors : List Polling.SyncCursor) :
    ∀ fields, Regular floats fields → Regular floats (cursors.foldl (fun fields cursor =>
      JsonValue.set fields (cursor.connectorInstanceId.val ++ ":" ++ cursor.cursorType.val)
        (.object [("status", .text (cursorStatusText cursor.status)),
          ("last_synced_at", cursor.lastSyncedAt.elim .null fun at_ =>
            .text at_.val)])) fields) := by
  induction cursors with
  | nil => exact fun fields h => h
  | cons cursor cursors ih =>
      intro fields h
      refine ih _ (h.set _ (regular_pair (by decide) ⟨rfl, rfl⟩ ?_).object)
      cases cursor.lastSyncedAt with
      | none => exact ⟨rfl, rfl⟩
      | some at_ => exact ⟨rfl, rfl⟩

theorem regular_environmentGraph (floats : FloatRepr) (refs : List OperationalGraph.EntityRef) :
    distinct (BaselineLibrary.environmentGraph refs) = true ∧
      (BaselineLibrary.environmentGraph refs).exact floats = true :=
  (regular_pair (by decide) (regular_groupCounts floats _).object
    (regular_groupCounts floats _).object).object

theorem regular_sections (lib : BaselineLibrary) (inv : Inventory) (provider : Provider)
    (clientId : ClientId) : Regular lib.floats (lib.observe inv provider clientId).sections := by
  have hposture : Regular lib.floats [("summary", .object (lib.posture provider).2)] := by
    obtain ⟨hkeys, hfigures⟩ := posture_summary lib provider
    have hsummary : Regular lib.floats (lib.posture provider).2 :=
      ⟨counters_facts.1.sublist hkeys, fun entry hentry =>
        ⟨(hfigures entry hentry).facts.1, (hfigures entry hentry).facts.2.1⟩⟩
    exact ⟨by simp, by simpa using hsummary.object⟩
  have hassets := (regular_pair (by decide : "asset_type_counts" ≠ "assets")
    (regular_groupCounts lib.floats
      ((inv.listCanonicalAssets clientId).map Assets.CanonicalAsset.assetType)).object
    (@regular_canonicalAssets inv clientId lib.floats).object).object
  have hinstances : Regular lib.floats ((BaselineLibrary.connectorStatuses inv clientId).map
      fun entry => (entry.1, JsonValue.text entry.2.text)) :=
    regular_map nodup_connectorStatuses fun entry _ => ⟨rfl, rfl⟩
  have hempty : Regular lib.floats [] := ⟨List.nodup_nil, by simp⟩
  have hconnectors := (regular_pair (by decide : "instances" ≠ "cursors") hinstances.object
    (regular_cursors (inv.listSyncCursors.filter fun cursor =>
      ((BaselineLibrary.connectorStatuses inv clientId).map Prod.fst).contains
        cursor.connectorInstanceId.val) _ hempty).object).object
  refine ⟨(by decide : ["microsoft_posture", "environment_graph", "canonical_assets",
    "connector_readiness"].Nodup), ?_⟩
  simp only [BaselineLibrary.observe, List.forall_mem_cons, List.not_mem_nil, false_imp_iff,
    implies_true, and_true]
  exact ⟨hposture.object, regular_environmentGraph _ _, hassets, hconnectors⟩

/-! ### Plain clients -/

/-- Redaction leaves what the graph and the assets of the client are named. -/
structure Plain (w : WordClass) (inv : Inventory) (clientId : ClientId) : Prop where
  refs : ∀ ref ∈ inv.entityRefs, ref.clientId = clientId →
    isSensitiveKey ref.entityType = false ∧ isSensitiveKey ref.sourceSystem = false
  assets : ∀ asset ∈ inv.canonicalAssets, asset.clientId = some clientId → PlainAsset w asset

theorem mem_listEntityRefs {ref : OperationalGraph.EntityRef} :
    ref ∈ inv.listEntityRefs clientId ↔ ref ∈ inv.entityRefs ∧ ref.clientId = clientId := by
  rw [Inventory.listEntityRefs, (List.perm_insertionSort _ _).mem_iff]
  simp [Table.mem_def]

theorem mem_listCanonicalAssets {asset : Assets.CanonicalAsset} :
    asset ∈ inv.listCanonicalAssets clientId ↔
      asset ∈ inv.canonicalAssets ∧ asset.clientId = some clientId := by
  rw [Inventory.listCanonicalAssets, (List.perm_insertionSort _ _).mem_iff]
  simp

theorem plain_iff : Plain w inv clientId ↔
    (∀ ref ∈ inv.listEntityRefs clientId, isSensitiveKey ref.entityType = false ∧
      isSensitiveKey ref.sourceSystem = false) ∧
      ∀ asset ∈ inv.listCanonicalAssets clientId, PlainAsset w asset := by
  simp only [mem_listEntityRefs, mem_listCanonicalAssets, and_imp]
  exact ⟨fun h => ⟨h.refs, h.assets⟩, fun h => ⟨h.1, h.2⟩⟩

/-- The domains of an observation whose entries are all ready are left alone by redaction exactly if
the client is plain: the connectors are never ready, and the posture is never redacted. -/
theorem domains_plain_iff :
    (∀ domain ∈ sectionCoveragePrefixes,
      ¬ HasGap (lib.observe inv provider clientId).sourceCoverage domain.1 →
        (∀ entry ∈ (lib.observe inv provider clientId).sourceCoverage, Covers domain.2 entry.1 →
          isSensitiveKey entry.1 = false) ∧
        unaffected lib.words
          (sectionOf (lib.observe inv provider clientId).sections domain.1) = true) ↔
      Plain lib.words inv clientId := by
  have hgraph : sectionOf (lib.observe inv provider clientId).sections "environment_graph" =
      BaselineLibrary.environmentGraph (inv.listEntityRefs clientId) := rfl
  have hassets : sectionOf (lib.observe inv provider clientId).sections "canonical_assets" =
      BaselineLibrary.canonicalAssets (inv.listCanonicalAssets clientId) := rfl
  rw [plain_iff, ← unaffected_environmentGraph_iff, ← unaffected_canonicalAssets_iff, ← hgraph,
    ← hassets]
  constructor
  · intro h
    exact ⟨(h ("environment_graph", ["environment_graph"]) (by decide)
        (not_hasGap_store (by simp))).2,
      (h ("canonical_assets", ["canonical_assets"]) (by decide) (not_hasGap_store (by simp))).2⟩
  · rintro ⟨hplainGraph, hplainAssets⟩ domain hdomain hready
    simp only [sectionCoveragePrefixes, List.mem_cons, List.not_mem_nil, or_false] at hdomain
    rcases hdomain with rfl | rfl | rfl | rfl
    · exact ⟨fun entry hentry hcovers => plainKey_of_covers (by simp) hentry hcovers,
        unaffected_posture lib provider⟩
    · exact ⟨fun entry hentry hcovers => plainKey_of_covers (by simp) hentry hcovers, hplainGraph⟩
    · exact ⟨fun entry hentry hcovers => plainKey_of_covers (by simp) hentry hcovers, hplainAssets⟩
    · exact absurd hasGap_connectors hready

end WaitLocalAgent.Baselines
