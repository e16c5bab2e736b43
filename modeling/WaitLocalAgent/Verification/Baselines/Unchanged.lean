import WaitLocalAgent.Verification.Baselines.Service

/-! # No drift without a change -/

namespace WaitLocalAgent.Baselines

open Foundation JsonValue Redaction

variable {w : WordClass} {limit : LimitOne} {s s' : BaselineStore} {clientId : ClientId}
  {baseline : ClientBaseline}

theorem LimitOne.pick_of_unique (limit : LimitOne) {rows : List ClientBaseline}
    {row : ClientBaseline}
    (hrow : row ∈ rows) (hunique : ∀ other ∈ rows, other = row) : limit.pick rows = some row := by
  obtain ⟨picked, hpick⟩ := Option.isSome_iff_exists.mp (limit.isSome (List.ne_nil_of_mem hrow))
  rw [hpick, hunique picked (limit.mem hpick)]

/-- The indices let no other row of the client have the version of the new one, nor be accepted with
it. -/
theorem eq_of_insertRow {row : ClientBaseline} (h : s.insertRow row = .ok s') :
    ∀ other ∈ s'.rowsOf row.clientId,
      other.version = row.version ∨ (other.accepted ∧ row.accepted) → other = row := by
  have hrows := (insertRow_eq_ok h).2 row.clientId
  rw [BaselineStore.insertRow] at h
  split at h
  · cases h
  · next hnone =>
      intro other hother hsame
      rw [hrows, if_pos rfl, List.mem_append, List.mem_singleton] at hother
      rcases hother with hold | rfl
      · refine absurd (List.any_eq_true.mpr ⟨other, hold, ?_⟩) hnone
        simpa using hsame
      · rfl

/-- A baseline that was made of the arguments, and that a look-up by its version finds. -/
structure Created (w : WordClass) (s : BaselineStore) (new : NewBaseline) (clientId : ClientId)
    (baseline : ClientBaseline) : Prop where
  mem : baseline ∈ s.rowsOf clientId
  alone : ∀ other ∈ s.rowsOf clientId,
    other.version = baseline.version ∨ (other.accepted ∧ baseline.accepted) → other = baseline
  pos : ¬ (baseline.version : ℤ) < 1
  fits : ¬ 2 ^ 63 ≤ (baseline.version : ℤ)
  coverage : baseline.sourceCoverageJson = jsonDumpsValue w (.object new.sourceCoverage)
  sections : baseline.sectionsJson = jsonDumpsValue w (.object new.sections)

theorem getClientBaseline_facts {version : ℤ}
    (h : s.getClientBaseline limit (.text clientId.val) version = .ok (some baseline)) :
    baseline ∈ s.rowsOf clientId ∧ baseline.version = version ∧ ¬ version < 1 ∧
      ¬ 2 ^ 63 ≤ version := by
  rw [BaselineStore.getClientBaseline] at h
  split at h
  · cases h
  · next hpos =>
      simp only [ScopeArgument.admits, normalizeClientId_val, bind_eq_ok, pure_eq_ok,
        raiseIf_eq_ok] at h
      obtain ⟨admits, hadmits, -, hfits, hpick⟩ := h
      cases hadmits
      obtain ⟨hrow, hmatches⟩ := List.mem_filter.mp (limit.mem hpick)
      simp only [Bool.and_eq_true, decide_eq_true_eq, beq_iff_eq, Option.some.injEq] at hmatches
      exact ⟨mem_rowsOf.mpr ⟨hrow, hmatches.2⟩, hmatches.1, hpos, hfits⟩

theorem created_of_create {new : NewBaseline}
    (h : s.createClientBaseline w limit new = .ok (s', some baseline))
    (hclient : normalizeClientId (some new.clientId) = some clientId) :
    Created w s' new clientId baseline := by
  rw [BaselineStore.createClientBaseline, hclient] at h
  simp only [bind_eq_ok, pure_eq_ok, Prod.mk.injEq] at h
  obtain ⟨-, -, -, -, inserted, hinsert, found, hfound, rfl, rfl⟩ := h
  obtain ⟨hmem, hversion, hpos, hfits⟩ := getClientBaseline_facts hfound
  have halone := eq_of_insertRow hinsert
  have heq := halone baseline hmem (.inl (by exact_mod_cast hversion))
  rw [← hversion] at hpos hfits
  rw [← heq] at halone
  exact ⟨hmem, heq ▸ halone, hpos, hfits, by rw [heq], by rw [heq]⟩

theorem Created.get {new : NewBaseline} (h : Created w s new clientId baseline) (limit : LimitOne)
    {client : String} (hclient : normalizeClientId (some client) = some clientId) :
    s.getClientBaseline limit (.text client) baseline.version = .ok (some baseline) := by
  obtain ⟨hrow, hrowClient⟩ := mem_rowsOf.mp h.mem
  rw [BaselineStore.getClientBaseline, if_neg h.pos, ScopeArgument.admits, hclient]
  simp only [Except.mapError, ok_bind, raiseIf_of_not h.fits]
  refine congrArg Except.ok (limit.pick_of_unique ?_ fun other hother => ?_)
  · simpa [hrowClient, ← Table.mem_def] using hrow
  · simp only [List.mem_filter, Bool.and_eq_true, decide_eq_true_eq, beq_iff_eq, Option.some.injEq]
      at hother
    exact h.alone other (mem_rowsOf.mpr ⟨hother.1, hother.2.2⟩)
      (.inl (by exact_mod_cast hother.2.1))

theorem Created.getAccepted {new : NewBaseline} (h : Created w s new clientId baseline)
    (limit : LimitOne) {client : String}
    (hclient : normalizeClientId (some client) = some clientId)
    (haccepted : baseline.accepted = true) :
    s.getAcceptedClientBaseline limit (.text client) = .ok (some baseline) := by
  obtain ⟨hrow, hrowClient⟩ := mem_rowsOf.mp h.mem
  rw [BaselineStore.getAcceptedClientBaseline, ScopeArgument.admits, hclient]
  simp only [Except.mapError, ok_bind]
  refine congrArg Except.ok (limit.pick_of_unique ?_ fun other hother => ?_)
  · simpa [hrowClient, haccepted, ← Table.mem_def] using hrow
  · simp only [List.mem_filter, Bool.and_eq_true, beq_iff_eq, Option.some.injEq] at hother
    exact h.alone other (mem_rowsOf.mpr ⟨hother.1, hother.2.2⟩) (.inr ⟨hother.2.1, haccepted⟩)

/-- The baseline is the one of the version that is asked for, or the accepted one. -/
def Selects (baseline : ClientBaseline) : Option ℤ → Prop
  | some version => version = baseline.version
  | none => baseline.accepted = true

theorem selects_version (baseline : ClientBaseline) :
    Selects baseline (some baseline.version) := rfl

theorem Created.select {new : NewBaseline} (h : Created w s new clientId baseline)
    (limit : LimitOne) {client : String}
    (hclient : normalizeClientId (some client) = some clientId) {version : Option ℤ}
    (hversion : Selects baseline version) :
    BaselineLibrary.selectBaseline limit s client version = .ok (some baseline) := by
  cases version with
  | some version => exact hversion ▸ h.get limit hclient
  | none =>
      have hlist : ∃ versions, s.listClientBaselines (.text client) = .ok versions := by
        rw [BaselineStore.listClientBaselines, ScopeArgument.admits, hclient]
        exact ⟨_, rfl⟩
      obtain ⟨versions, hlist⟩ := hlist
      rw [BaselineLibrary.selectBaseline, h.getAccepted limit hclient hversion]
      dsimp only [ok_bind]
      rw [hlist]
      rfl

variable {lib : BaselineLibrary} {inv : Inventory} {provider : Provider}

theorem exact_coverageFields (floats : FloatRepr) (coverage : List (String × CoverageStatus)) :
    (JsonValue.object (BaselineLibrary.coverageFields coverage)).exact floats = true := by
  rw [exact, floatsMeet, floatsMeetFields_eq_all, List.all_eq_true]
  intro entry hentry
  obtain ⟨original, -, rfl⟩ := List.mem_map.mp hentry
  rfl

/-- What is found between the stored observation of a client and the observation itself. -/
def unchangedFindings (lib : BaselineLibrary) (inv : Inventory) (provider : Provider)
    (clientId : ClientId) : List Finding :=
  let observed := lib.observe inv provider clientId
  let coverage := BaselineLibrary.coverageFields observed.sourceCoverage
  compareNormalizedSections lib.number lib.sha256 (storedFields lib.words observed.sections)
    observed.sections (some (storedFields lib.words coverage)) (some coverage)

theorem diffBaseline_of_create (later : LimitOne) {client generatedAt : String}
    {drawn : NormalizedText} {version : Option ℤ}
    (hclient : normalizeClientId (some client) = some clientId)
    (hcreate : lib.createBaseline limit s inv provider client generatedAt drawn =
      .ok (s', some baseline)) (hversion : Selects baseline version) :
    lib.diffBaseline later s' inv provider client version =
      .ok (some ⟨baseline, unchangedFindings lib inv provider clientId,
        (lib.observe inv provider clientId).sourceCoverage⟩) := by
  have hcompose : lib.composeBaseline inv provider client =
      .ok (lib.observe inv provider clientId) := by
    rw [BaselineLibrary.composeBaseline, hclient]
  rw [BaselineLibrary.createBaseline, hcompose, ok_bind] at hcreate
  have hcreated := created_of_create hcreate hclient
  have hsections := jsonObject_jsonDumpsValue (w := lib.words) lib.floats
    (regular_sections lib inv provider clientId).object.2
  have hcoverage := jsonObject_jsonDumpsValue (w := lib.words) lib.floats
    (exact_coverageFields lib.floats (lib.observe inv provider clientId).sourceCoverage)
  rw [← hcreated.sections] at hsections
  rw [← hcreated.coverage] at hcoverage
  rw [unchangedFindings, ← hsections, ← hcoverage, BaselineLibrary.diffBaseline,
    hcreated.select later hclient hversion, ok_bind]
  dsimp only
  rw [hcompose]
  rfl

/-- The digests of the stored observation and of the fresh one are equal only if their texts are. -/
def Collisionless (lib : BaselineLibrary) (inv : Inventory) (provider : Provider)
    (clientId : ClientId) : Prop :=
  let sections := (lib.observe inv provider clientId).sections
  lib.sha256 (canonicalText (storedFields lib.words sections)) =
    lib.sha256 (canonicalText sections) →
      canonicalText (storedFields lib.words sections) = canonicalText sections

theorem unchangedFindings_noPhantom_iff (hcollision : Collisionless lib inv provider clientId) :
    NoPhantom (lib.observe inv provider clientId).sourceCoverage
      (unchangedFindings lib inv provider clientId) ↔ Plain lib.words inv clientId := by
  obtain ⟨hdistinct, hexact⟩ := (regular_sections lib inv provider clientId).object
  rw [unchangedFindings]
  exact (noPhantom_iff lib.floats hdistinct hexact covered_observe hcollision).trans
    domains_plain_iff

/-- A baseline that is diffed in the state that it was made in shows nothing but domains that are
not ready exactly if redaction leaves the names in the client's graph and of its assets. -/
theorem diffBaseline_noPhantom_iff (later : LimitOne) {client generatedAt : String}
    {drawn : NormalizedText} {version : Option ℤ}
    (hclient : normalizeClientId (some client) = some clientId)
    (hcreate : lib.createBaseline limit s inv provider client generatedAt drawn =
      .ok (s', some baseline))
    (hversion : Selects baseline version) (hcollision : Collisionless lib inv provider clientId) :
    ∃ diff, lib.diffBaseline later s' inv provider client version = .ok (some diff) ∧
      (NoPhantom diff.sourceCoverage diff.findings ↔ Plain lib.words inv clientId) :=
  ⟨_, diffBaseline_of_create later hclient hcreate hversion,
    unchangedFindings_noPhantom_iff hcollision⟩

/-- Digests that are the texts, and floats that are their own. -/
def plainLibrary : BaselineLibrary where
  sha256 := id
  words := .known
  floats := .verbatim
  number _ := 0

/-- A host of the client, under the id that its name gives it. -/
def host (name : String) : Assets.CanonicalAsset where
  id := 1
  canonicalId := "host-runtime:host:" ++ name
  assetType := "host"
  displayName := name
  clientId := some acme
  owner := ""
  sourceModule := "host-runtime"
  sourceId := name
  confidence := 1
  firstSeen := "2026-01-01T00:00:00+00:00"
  lastSeen := "2026-01-01T00:00:00+00:00"
  attributesJson := "\x7b\x7d"

def hostInventory (name : String) : Inventory where
  entityRefs := .empty
  canonicalAssets := [host name]
  connectorInstances := .empty
  syncCursors := .empty
  unique _ := (List.nodup_singleton _).sublist (List.filter_sublist.map _)

def acmeStore : BaselineStore := ⟨[acme], .empty⟩

theorem normalizeClientId_acme : normalizeClientId (some "acme") = some acme :=
  normalizeClientId_val acme

theorem create_host (name : String) (drawn : NormalizedText) : ∃ s' baseline,
    plainLibrary.createBaseline .first acmeStore (hostInventory name) .notConfigured "acme"
      "2026-01-02T00:00:00+00:00" drawn = .ok (s', some baseline) := by
  have hcompose : plainLibrary.composeBaseline (hostInventory name) .notConfigured "acme" =
      .ok (plainLibrary.observe (hostInventory name) .notConfigured acme) := by
    rw [BaselineLibrary.composeBaseline, normalizeClientId_acme]
  rw [BaselineLibrary.createBaseline, hcompose, ok_bind, BaselineStore.createClientBaseline]
  dsimp only
  rw [normalizeClientId_acme]
  dsimp only
  rw [raiseIf_of_not (by decide), raiseIf_of_not (by decide), ok_bind, ok_bind]
  exact ⟨_, _, rfl⟩

theorem diffBaseline_noPhantom_iff_host : ∃ s' baseline diff,
    plainLibrary.createBaseline .first acmeStore (hostInventory "pc-1") .notConfigured "acme"
      "2026-01-02T00:00:00+00:00" acme = .ok (s', some baseline) ∧
    plainLibrary.diffBaseline .first s' (hostInventory "pc-1") .notConfigured "acme"
      (some baseline.version) = .ok (some diff) ∧
    (NoPhantom diff.sourceCoverage diff.findings ↔ Plain .known (hostInventory "pc-1") acme) := by
  obtain ⟨s', baseline, hcreate⟩ := create_host "pc-1" acme
  obtain ⟨diff, hdiff, hiff⟩ := diffBaseline_noPhantom_iff .first normalizeClientId_acme hcreate
    (selects_version baseline) fun h => h
  exact ⟨s', baseline, diff, hcreate, hdiff, hiff⟩

/-- A host named `key-server` is redacted in the baseline, and found to be changed in what is
fresh. -/
theorem not_diffBaseline_noPhantom : ¬ ∀ (s s' : BaselineStore) (inv : Inventory)
    (provider : Provider) (client generatedAt : String) (drawn : NormalizedText)
    (baseline : ClientBaseline) (diff : BaselineLibrary.BaselineDiff),
    plainLibrary.createBaseline .first s inv provider client generatedAt drawn =
      .ok (s', some baseline) →
    plainLibrary.diffBaseline .first s' inv provider client (some baseline.version) =
      .ok (some diff) →
    NoPhantom diff.sourceCoverage diff.findings := by
  intro h
  obtain ⟨s', baseline, hcreate⟩ := create_host "key-server" acme
  have hdiff := diffBaseline_of_create .first normalizeClientId_acme hcreate
    (selects_version baseline)
  have hcollision : Collisionless plainLibrary (hostInventory "key-server") .notConfigured acme :=
    fun h => h
  have hplain := (unchangedFindings_noPhantom_iff hcollision).mp
    (h _ _ _ _ _ _ _ _ _ hcreate hdiff)
  have hasset := hplain.assets (host "key-server") List.mem_cons_self rfl
  exact absurd (hasset.2 (by decide)).1 (by decide)

end WaitLocalAgent.Baselines
