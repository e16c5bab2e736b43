import WaitLocalAgent.Foundation.Counted
import WaitLocalAgent.Model.AgentSkills
import WaitLocalAgent.Verification.AgentPlatform.Storage

/-! # Skills and their revisions

The revisions of a skill are counted up to its current version, each with the digest of what is
stored, whatever the calls do. An archived skill gets no more of them exactly in the runs in which
no update is committed after the archiving. -/

namespace WaitLocalAgent.AgentSkills

open Foundation JsonValue Redaction AgentPlatform

variable {lib : Library} {s t u : Skills}

/-! ### Digests -/

theorem exact_texts (texts : List String) :
    (JsonValue.array (texts.map .text)).exact lib.floats = true := by
  induction texts with
  | nil => rfl
  | cons text texts ih => exact exact_array_cons rfl ih

theorem exact_objects {fss : List Fields}
    (h : ∀ fs ∈ fss, (JsonValue.object fs).exact lib.floats = true) :
    (JsonValue.array (fss.map .object)).exact lib.floats = true := by
  induction fss with
  | nil => rfl
  | cons fs fss ih =>
      exact exact_array_cons (h fs (by simp)) (ih fun fs' hfs' => h fs' (by simp [hfs']))

theorem exact_resource (resource : Resource) :
    (JsonValue.object resource.fields).exact lib.floats = true := rfl

theorem exact_schemaOf {value schema : Fields} (h : schemaOf lib value = .ok schema) :
    (JsonValue.object schema).exact lib.floats = true := by
  simp only [schemaOf, bind_eq_ok] at h
  obtain ⟨v, hsafe, h⟩ := h
  split at h
  · simp only [bind_eq_ok, pure_eq_ok] at h
    obtain ⟨_, -, _, -, _, -, rfl⟩ := h
    exact exact_of_safeJsonValue hsafe
  · cases h

/-- What a payload says can be stored, and has its digest. -/
structure RevisionPayload.Sound (lib : Library) (payload : RevisionPayload) : Prop where
  schema : (JsonValue.object payload.inputSchema).exact lib.floats = true
  resources : ∀ fs ∈ payload.resources, (JsonValue.object fs).exact lib.floats = true
  digest : payload.digest = digestJson lib payload.json

theorem sound_revisionPayload {request : RevisionRequest} {payload : RevisionPayload}
    (h : revisionPayload lib request = .ok payload) : payload.Sound lib := by
  simp only [revisionPayload, bind_eq_ok, pure_eq_ok] at h
  obtain ⟨_, -, _, -, _, -, schema, hschema, resources, -, rfl⟩ := h
  refine ⟨exact_schemaOf hschema, fun fs hfs => ?_, rfl⟩
  obtain ⟨resource, -, rfl⟩ := List.mem_map.mp hfs
  exact exact_resource resource

def RevisionRow.Digested (lib : Library) (r : RevisionRow) : Prop :=
  r.digest = digestJson lib (r.content lib).json

theorem map_strOf_text (texts : List String) :
    ((texts.map JsonValue.text).map sortKeys).map lib.strOf = texts := by
  induction texts with
  | nil => rfl
  | cons text texts ih => simpa [sortKeys, Library.strOf] using ih

theorem filterMap_mapping?_objects (fss : List Fields) :
    ((fss.map JsonValue.object).map sortKeys).filterMap mapping? =
      fss.map fun fs => byKey (sortFields fs) := by
  induction fss with
  | nil => rfl
  | cons fs fss ih => simpa [sortKeys_object, mapping?] using ih

theorem content_row {payload : RevisionPayload} (h : payload.Sound lib) (skillId : String)
    (version : ℕ) (createdBy createdAt : String) :
    (payload.row skillId version createdBy createdAt).content lib =
      { payload.toContent with
        inputSchema := byKey (sortFields payload.inputSchema)
        resources := payload.resources.map fun fs => byKey (sortFields fs) } := by
  simp only [RevisionRow.content, RevisionPayload.row]
  rw [jsonLoadsList_jsonDumps (exact_texts _), jsonLoadsObject_jsonDumps h.schema,
    jsonLoadsList_jsonDumps (exact_objects h.resources), map_strOf_text,
    filterMap_mapping?_objects]

theorem sortItems_sorted_objects (fss : List Fields) :
    sortItems ((fss.map fun fs => byKey (sortFields fs)).map JsonValue.object) =
      sortItems (fss.map .object) := by
  induction fss with
  | nil => rfl
  | cons fs fss ih =>
      have hfs : sortKeys (.object (byKey (sortFields fs))) = sortKeys (.object fs) :=
        sortKeys_sortKeys (.object fs)
      simp only [List.map_cons, sortItems, hfs, ih]

theorem digested_row {payload : RevisionPayload} (h : payload.Sound lib) (skillId : String)
    (version : ℕ) (createdBy createdAt : String) :
    (payload.row skillId version createdBy createdAt).Digested lib := by
  have hschema : byKey (sortFields (byKey (sortFields payload.inputSchema))) =
      byKey (sortFields payload.inputSchema) :=
    JsonValue.object.inj (sortKeys_sortKeys (.object payload.inputSchema))
  have harray : ∀ vs, sortKeys (.array vs) = .array (sortItems vs) := fun _ => rfl
  rw [RevisionRow.Digested, content_row h]
  refine h.digest.trans (digestJson_congr ?_)
  simp only [Content.json, sortKeys_object, sortFields, hschema, harray, sortItems_sorted_objects]

/-! ### Revisions -/

variable {next : RevisionRow} {k : SkillRow} {row : SkillRow}

namespace Skills

def versions (s : Skills) (id : String) : List ℕ :=
  (s.revisions.rows.filter fun r => r.skillId = id).map RevisionRow.version

/-- The revisions of every skill are counted up to its current version, and have the digest of what
they say. -/
structure Revised (lib : Library) (s : Skills) : Prop where
  counted : ∀ k ∈ s.skills, Counted 1 (s.versions k.id) ∧
    (s.versions k.id).length = k.currentVersion
  started : ∀ k ∈ s.skills, 1 ≤ k.currentVersion
  digested : ∀ r ∈ s.revisions, r.Digested lib
  owned : ∀ r ∈ s.revisions, ∃ k ∈ s.skills, k.id = r.skillId

/-- A skill that is archived stays so, and has no more revisions. -/
def Frozen (s t : Skills) : Prop :=
  ∀ k ∈ s.skills, k.status = .archived →
    (∃ k' ∈ t.skills, k'.id = k.id ∧ k'.status = .archived) ∧
      ∀ r ∈ t.revisions, r.skillId = k.id → r ∈ s.revisions

theorem Frozen.refl (s : Skills) : Frozen s s :=
  fun k hk harchived => ⟨⟨k, hk, rfl, harchived⟩, fun _ hr _ => hr⟩

theorem Frozen.trans (h : Frozen s t) (h' : Frozen t u) : Frozen s u := by
  intro k hk harchived
  obtain ⟨⟨k', hk', hid, harchived'⟩, hold⟩ := h k hk harchived
  obtain ⟨⟨k'', hk'', hid', harchived''⟩, hold'⟩ := h' k' hk' harchived'
  refine ⟨⟨k'', hk'', hid'.trans hid, harchived''⟩, fun r hr hskill => ?_⟩
  exact hold r (hold' r hr (hskill.trans hid.symm)) hskill

theorem revised_empty (lib : Library) : empty.Revised lib where
  counted _ hk := absurd hk (Table.not_mem_empty _)
  started _ hk := absurd hk (Table.not_mem_empty _)
  digested _ hr := absurd hr (Table.not_mem_empty _)
  owned _ hr := absurd hr (Table.not_mem_empty _)

theorem insertRevision?_eq_some {row : RevisionRow} (h : s.insertRevision? row = some t) :
    t.skills = s.skills ∧ t.revisions.rows = s.revisions.rows ++ [row] ∧
      ∃ k ∈ s.skills, k.id = row.skillId := by
  unfold insertRevision? at h
  split at h
  · next hskill =>
      obtain ⟨revisions, hinsert, rfl⟩ := Option.map_eq_some_iff.mp h
      obtain ⟨hnew, rfl⟩ := Table.insert?_eq_some_iff.mp hinsert
      obtain ⟨k, hk⟩ := Option.isSome_iff_exists.mp hskill
      exact ⟨rfl, rfl, k, Table.find?_eq_some_iff.mp hk⟩
  · cases h

theorem insertSkill?_eq_some (h : s.insertSkill? row = some t) :
    t.revisions = s.revisions ∧ t.skills.rows = s.skills.rows ++ [row] ∧
      ∀ k ∈ s.skills, k.id ≠ row.id := by
  unfold insertSkill? at h
  split at h
  · cases h
  · obtain ⟨skills, hinsert, rfl⟩ := Option.map_eq_some_iff.mp h
    obtain ⟨hnew, rfl⟩ := Table.insert?_eq_some_iff.mp hinsert
    exact ⟨rfl, rfl, hnew⟩

/-- A creation adds a skill with its first revision. -/
theorem create_eq_ok {initial : RevisionRow} (h : s.create row initial = .ok t) :
    t.skills.rows = s.skills.rows ++ [row] ∧
      t.revisions.rows = s.revisions.rows ++ [initial] ∧ ∀ k ∈ s.skills, k.id ≠ row.id := by
  unfold create at h
  split at h
  · next hinsert =>
      cases h
      obtain ⟨s', hskill, hrevision⟩ := Option.bind_eq_some_iff.mp hinsert
      obtain ⟨hrevisions, hskills, hnew⟩ := insertSkill?_eq_some hskill
      obtain ⟨hsame, hrows, -⟩ := insertRevision?_eq_some hrevision
      exact ⟨by rw [hsame, hskills], by rw [hrows, hrevisions], hnew⟩
  · cases h

variable {change : Change}

/-- An update adds a revision to the skill of the version that it is based on. -/
theorem revise_eq_ok (h : s.revise change next = .ok t) :
    t.skills.rows =
        s.skills.rows.map (fun k => if change.meets k then change.apply k else k) ∧
      t.revisions.rows = s.revisions.rows ++ [next] ∧ ∃ k ∈ s.skills, change.meets k = true := by
  unfold revise at h
  split at h
  · cases h
  · next s' hinsert =>
      obtain ⟨hskills, hrows, -⟩ := insertRevision?_eq_some hinsert
      split at h
      · next hcount =>
          cases h
          refine ⟨?_, hrows, ?_⟩
          · rw [← hskills]
            rfl
          · have hpos : 0 < s'.skills.rowcount change.meets := by omega
            rw [hskills] at hpos
            exact Table.rowcount_pos.mp hpos
      · cases h

theorem meets_iff : change.meets k = true ↔
    k.id = change.skillId ∧ k.clientId = change.clientId ∧ k.currentVersion = change.base := by
  simp [Change.meets, and_assoc]

/-- An update whose skill has the version that it is based on is committed. -/
theorem exists_revise (hk : k ∈ s.skills)
    (hmeets : change.meets k = true) (hskill : next.skillId = change.skillId)
    (hfree : ∀ r ∈ s.revisions, r.key ≠ next.key) : ∃ t, s.revise change next = .ok t := by
  obtain ⟨hid, -, -⟩ := meets_iff.mp hmeets
  have hfind : s.skills.find? next.skillId = some k :=
    Table.find?_eq_some_iff.mpr ⟨hk, hid.trans hskill.symm⟩
  have hinsert : s.insertRevision? next =
      some { s with revisions := s.revisions.insert next hfree } := by
    rw [insertRevision?, if_pos (by simp [hfind]), Table.insert?_eq_some_iff.mpr ⟨hfree, rfl⟩]
    rfl
  have hcount : s.skills.rowcount change.meets = 1 := by
    have hle := Table.rowcount_le_one (t := s.skills) (p := change.meets) (k := change.skillId)
      fun r hr => (meets_iff.mp hr).1
    have hpos := Table.rowcount_pos.mpr ⟨k, hk, hmeets⟩
    omega
  rw [revise, hinsert]
  exact ⟨_, if_pos hcount⟩

theorem versions_append {row : RevisionRow} (h : t.revisions.rows = s.revisions.rows ++ [row])
    (id : String) :
    t.versions id = s.versions id ++ if row.skillId = id then [row.version] else [] := by
  rw [versions, versions, h, List.filter_append, List.map_append]
  by_cases hid : row.skillId = id <;> simp [hid]

theorem versions_eq_nil {id : String} (h : s.Revised lib) (hnew : ∀ k ∈ s.skills, k.id ≠ id) :
    s.versions id = [] := by
  rw [versions, List.map_eq_nil_iff, List.filter_eq_nil_iff]
  intro r hr hid
  obtain ⟨k, hk, hskill⟩ := h.owned r hr
  exact hnew k hk (hskill.trans (by simpa using hid))

/-! ### Writes -/

theorem mem_of_rows {row : RevisionRow} (h : t.revisions.rows = s.revisions.rows ++ [row])
    {r : RevisionRow} : r ∈ t.revisions ↔ r ∈ s.revisions ∨ r = row := by
  rw [Table.mem_def, h, List.mem_append, List.mem_singleton]
  rfl

theorem Revised.create {initial : RevisionRow} (h : s.Revised lib)
    (hcreate : s.create row initial = .ok t) (hfirst : row.currentVersion = 1)
    (hskill : initial.skillId = row.id) (hversion : initial.version = 1)
    (hdigested : initial.Digested lib) : t.Revised lib := by
  obtain ⟨hskills, hrows, hnew⟩ := create_eq_ok hcreate
  have hmem : ∀ k, k ∈ t.skills ↔ k ∈ s.skills ∨ k = row := fun k => by
    rw [Table.mem_def, hskills, List.mem_append, List.mem_singleton]
    rfl
  refine ⟨fun k hk => ?_, fun k hk => ?_, fun r hr => ?_, fun r hr => ?_⟩
  · rw [versions_append hrows]
    rcases (hmem k).mp hk with hold | rfl
    · rw [hskill, if_neg (hnew k hold).symm, List.append_nil]
      exact h.counted k hold
    · rw [versions_eq_nil h hnew, hskill, if_pos rfl, hversion, hfirst]
      exact ⟨Counted.nil.concat, rfl⟩
  · rcases (hmem k).mp hk with hold | rfl
    · exact h.started k hold
    · exact hfirst.ge
  · rcases (mem_of_rows hrows).mp hr with hold | rfl
    · exact h.digested r hold
    · exact hdigested
  · rcases (mem_of_rows hrows).mp hr with hold | rfl
    · obtain ⟨k, hk, hid⟩ := h.owned r hold
      exact ⟨k, (hmem k).mpr (.inl hk), hid⟩
    · exact ⟨row, (hmem row).mpr (.inr rfl), hskill.symm⟩

/-- What a statement does to the skills that there are. -/
def KeepsSkills (s t : Skills) : Prop :=
  ∀ k ∈ s.skills, ∃ k' ∈ t.skills, k'.id = k.id ∧ k'.clientId = k.clientId ∧
    (k.status = .archived → k'.status = .archived)

theorem KeepsSkills.refl (s : Skills) : KeepsSkills s s := fun k hk => ⟨k, hk, rfl, rfl, id⟩

theorem keepsSkills_create {initial : RevisionRow}
    (hcreate : s.create row initial = .ok t) : KeepsSkills s t := by
  intro k hk
  refine ⟨k, ?_, rfl, rfl, id⟩
  rw [Table.mem_def, (create_eq_ok hcreate).1]
  exact List.mem_append_left _ hk

theorem keepsSkills_of_map {p : SkillRow → Bool} {f : SkillRow → SkillRow}
    (hrows : t.skills.rows = s.skills.rows.map fun k => if p k then f k else k)
    (hid : ∀ k, (f k).id = k.id) (hclient : ∀ k, (f k).clientId = k.clientId)
    (hstatus : ∀ k, k.status = .archived → (f k).status = .archived) : KeepsSkills s t := by
  intro k hk
  refine ⟨if p k then f k else k, ?_, ?_⟩
  · rw [Table.mem_def, hrows]
    exact List.mem_map_of_mem hk
  · split
    · exact ⟨hid k, hclient k, hstatus k⟩
    · exact ⟨rfl, rfl, id⟩

theorem keepsSkills_revise
    (hrevise : s.revise change next = .ok t) : KeepsSkills s t :=
  keepsSkills_of_map (revise_eq_ok hrevise).1 (fun _ => rfl) (fun _ => rfl) fun _ h => h

theorem keepsSkills_archive (clientId skillId now : String) :
    KeepsSkills s (s.archive clientId skillId now) :=
  keepsSkills_of_map (f := fun k => { k with status := .archived, updatedAt := now }) rfl
    (fun _ => rfl) (fun _ => rfl) fun _ _ => rfl

theorem Revised.revise (h : s.Revised lib)
    (hrevise : s.revise change next = .ok t) (hskill : next.skillId = change.skillId)
    (hversion : next.version = change.base + 1) (hdigested : next.Digested lib) :
    t.Revised lib := by
  obtain ⟨hskills, hrows, k₀, hk₀, hmeets⟩ := revise_eq_ok hrevise
  obtain ⟨hid₀, hclient₀, hbase₀⟩ := meets_iff.mp hmeets
  refine ⟨fun k hk => ?_, fun k hk => ?_, fun r hr => ?_, fun r hr => ?_⟩
  · rw [Table.mem_def, hskills] at hk
    obtain ⟨k', hk', rfl⟩ := List.mem_map.mp hk
    rw [versions_append hrows, hskill]
    by_cases hsame : k' = k₀
    · obtain ⟨hcounted, hlength⟩ := h.counted k₀ hk₀
      have hnext : next.version = 1 + (s.versions k₀.id).length := by omega
      rw [hsame, if_pos hmeets]
      show Counted 1 (s.versions k₀.id ++ if change.skillId = k₀.id then _ else _) ∧
        List.length (s.versions k₀.id ++ if change.skillId = k₀.id then _ else _) =
          change.base + 1
      rw [if_pos hid₀.symm, hnext]
      exact ⟨hcounted.concat, by simp [hlength, hbase₀]⟩
    · have hother : change.skillId ≠ k'.id := fun hid =>
        hsame (Table.eq_of_key_eq hk' hk₀ (hid.symm.trans hid₀.symm))
      rw [if_neg fun hmeets' => hother (meets_iff.mp hmeets').1.symm, if_neg hother,
        List.append_nil]
      exact h.counted k' hk'
  · rw [Table.mem_def, hskills] at hk
    obtain ⟨k', hk', rfl⟩ := List.mem_map.mp hk
    split
    · exact Nat.le_add_left 1 change.base
    · exact h.started k' hk'
  · rcases (mem_of_rows hrows).mp hr with hold | rfl
    · exact h.digested r hold
    · exact hdigested
  · have hkeeps := keepsSkills_revise hrevise
    have howner : ∃ k ∈ s.skills, k.id = r.skillId := by
      rcases (mem_of_rows hrows).mp hr with hold | rfl
      · exact h.owned r hold
      · exact ⟨k₀, hk₀, hid₀.trans hskill.symm⟩
    obtain ⟨k, hk, hid⟩ := howner
    obtain ⟨k', hk', hid', -⟩ := hkeeps k hk
    exact ⟨k', hk', hid'.trans hid⟩

theorem Revised.archive (h : s.Revised lib) (clientId skillId now : String) :
    (s.archive clientId skillId now).Revised lib := by
  refine ⟨fun k hk => ?_, fun k hk => ?_, h.digested, fun r hr => ?_⟩
  · obtain ⟨k', hk', rfl⟩ := List.mem_map.mp hk
    have hsame := h.counted k' hk'
    split <;> exact hsame
  · obtain ⟨k', hk', rfl⟩ := List.mem_map.mp hk
    have hsame := h.started k' hk'
    split <;> exact hsame
  · obtain ⟨k, hk, hid⟩ := h.owned r hr
    obtain ⟨k', hk', hid', -⟩ := keepsSkills_archive clientId skillId now k hk
    exact ⟨k', hk', hid'.trans hid⟩

/-- The revision after the current version is free. -/
theorem Revised.free (h : s.Revised lib) (hk : k ∈ s.skills) {r : RevisionRow}
    (hr : r ∈ s.revisions) : r.key ≠ (k.id, k.currentVersion + 1) := by
  intro hkey
  have hskill : r.skillId = k.id := congrArg Prod.fst hkey
  have hversion : r.version = k.currentVersion + 1 := congrArg Prod.snd hkey
  obtain ⟨hcounted, hlength⟩ := h.counted k hk
  have hmem : r.version ∈ s.versions k.id :=
    List.mem_map_of_mem (List.mem_filter.mpr ⟨hr, by simpa using hskill⟩)
  have hbound := hcounted.mem_iff.mp hmem
  omega

/-- The revision of the current version is there. -/
theorem Revised.current (h : s.Revised lib) (hk : k ∈ s.skills) :
    ∃ r ∈ s.revisions, r.key = (k.id, k.currentVersion) := by
  obtain ⟨hcounted, hlength⟩ := h.counted k hk
  have hmem : k.currentVersion ∈ s.versions k.id :=
    hcounted.mem_iff.mpr ⟨h.started k hk, by omega⟩
  obtain ⟨r, hr, hversion⟩ := List.mem_map.mp hmem
  obtain ⟨hr, hskill⟩ := List.mem_filter.mp hr
  have hskill : r.skillId = k.id := by simpa using hskill
  exact ⟨r, hr, Prod.ext hskill hversion⟩

/-- An update that is committed keeps what is archived exactly when its skill is active. -/
theorem frozen_revise_iff (h : s.Revised lib)
    (hrevise : s.revise change next = .ok t) (hskill : next.skillId = change.skillId)
    (hversion : next.version = change.base + 1) :
    Frozen s t ↔ ∀ k ∈ s.skills, change.meets k = true → k.status = .active := by
  obtain ⟨hskills, hrows, -⟩ := revise_eq_ok hrevise
  constructor
  · intro hfrozen k hk hmeets
    obtain ⟨hid, -, hbase⟩ := meets_iff.mp hmeets
    cases hstatus : k.status with
    | active => rfl
    | archived =>
        have hnext := (hfrozen k hk hstatus).2 next ((mem_of_rows hrows).mpr (.inr rfl))
          (hskill.trans hid.symm)
        refine absurd (Prod.ext ?_ ?_) (h.free hk hnext)
        · exact hskill.trans hid.symm
        · rw [hbase]
          exact hversion
  · intro hactive k hk harchived
    obtain ⟨k', hk', hid, -, harchived'⟩ := keepsSkills_revise hrevise k hk
    refine ⟨⟨k', hk', hid, harchived' harchived⟩, fun r hr hsame => ?_⟩
    rcases (mem_of_rows hrows).mp hr with hold | rfl
    · exact hold
    · obtain ⟨k₀, hk₀, hmeets⟩ := (revise_eq_ok hrevise).2.2
      have hk₀k : k₀ = k := Table.eq_of_key_eq hk₀ hk
        ((meets_iff.mp hmeets).1.trans (hskill.symm.trans hsame))
      rw [hactive k hk (hk₀k ▸ hmeets)] at harchived
      cases harchived

theorem frozen_of_revisions (hkeeps : KeepsSkills s t) (hrows : ∀ r ∈ t.revisions,
    (∃ k ∈ s.skills, k.id = r.skillId) → r ∈ s.revisions) : Frozen s t := by
  intro k hk harchived
  obtain ⟨k', hk', hid, -, harchived'⟩ := hkeeps k hk
  exact ⟨⟨k', hk', hid, harchived' harchived⟩, fun r hr hskill => hrows r hr ⟨k, hk, hskill.symm⟩⟩

end Skills

/-! ### Calls -/

theorem toList_uuidText (uuid : BitVec 128) : ∃ c cs, (uuidText uuid).toList = c :: cs ∧
    c.isAlphanum = true ∧ cs.length = 35 ∧ ∀ d ∈ c :: cs, d = '-' ∨ d.isAlphanum = true := by
  have hdigit : ∀ n, (Nat.digitChar (n % 16)).isAlphanum = true := by
    intro n
    have hdigits : ∀ d < 16, (Nat.digitChar d).isAlphanum = true := by decide
    exact hdigits _ (Nat.mod_lt _ (by decide))
  simp [uuidText, List.intercalate, List.intersperse, List.range', hdigit]

theorem validateIdentifier_uuidText (uuid : BitVec 128) :
    validateIdentifier (uuidText uuid) "skill_id" = .ok (uuidText uuid) := by
  obtain ⟨c, cs, hlist, hstart, hlength, hchars⟩ := toList_uuidText uuid
  have hstrip : Text.strip (uuidText uuid) = uuidText uuid := by
    refine Text.strip_of_not_isSpace fun d hd => ?_
    rw [hlist] at hd
    rcases hchars d hd with rfl | hd
    · decide
    · exact Text.isSpace_of_isAlphanum hd
  have hidentifier : isIdentifier (uuidText uuid) = true := by
    rw [isIdentifier, hlist]
    simp only [isIdentifierStart, hstart, hlength, Bool.and_eq_true, List.all_eq_true, true_and]
    refine ⟨by decide, fun d hd => ?_⟩
    rcases hchars d (List.mem_cons_of_mem c hd) with rfl | hd
    · decide
    · simp [isIdentifierChar, hd]
  rw [validateIdentifier, hstrip, hidentifier]
  rfl

/-- What a call knows: nothing yet, the skill that it has found, the skill that it has written, and
the revision that it reads of that one; `lost` says that it was told what cannot be. -/
inductive Mode where
  | reading
  | found (clientId skillId : String)
  | wrote (clientId skillId : String)
  | selected (skillId : String) (version : ℕ)
  | lost

def Mode.HasWritten : Mode → Prop
  | reading | found _ _ => False
  | wrote _ _ | selected _ _ | lost => True

def Asked (clientId skillId : String) (k : SkillRow) : Prop :=
  k.id = skillId ∧ k.clientId = clientId

instance (clientId skillId : String) (k : SkillRow) : Decidable (Asked clientId skillId k) :=
  inferInstanceAs (Decidable (_ ∧ _))

def protocol (lib : Library) : Program.Protocol Mode SkillAction SkillAction.Answer where
  allowed
    | .reading, .create row initial => row.currentVersion = 1 ∧ initial.skillId = row.id ∧
        initial.version = 1 ∧ initial.Digested lib
    | .found _ _, .revise change next => next.skillId = change.skillId ∧
        next.version = change.base + 1 ∧ next.Digested lib
    | .found c i, .archive clientId skillId _ => clientId = c ∧ skillId = i
    | .lost, _ => True
    | _, .create _ _ | _, .revise _ _ | _, .archive _ _ _ => False
    | _, _ => True
  move
    | .reading, .select clientId skillId, some k =>
        if Asked clientId skillId k then .found clientId skillId else .lost
    | .reading, .create row _, .ok () => .wrote row.clientId row.id
    | .found _ _, .revise change _, .ok () => .wrote change.clientId change.skillId
    | .found c i, .archive _ _ _, () => .wrote c i
    | .wrote c i, .select clientId skillId, answer =>
        if clientId = c ∧ skillId = i then
          match answer with
          | some k => if Asked c i k then .selected i k.currentVersion else .lost
          | none => .lost
        else .wrote c i
    | .selected i v, .revision skillId version, answer =>
        if skillId = i ∧ version = v ∧ answer = none then .lost else .selected i v
    | m, _, _ => m

/-- A call that raises has not written, unless it is lost. -/
def RaisesUnwritten {α : Type} (m : Mode) (result : Except PlatformError α) : Prop :=
  match result with
  | .ok _ => True
  | .error _ => m.HasWritten → m = .lost

variable {a : SkillAction}

section Follows

variable {α : Type} {m : Mode}

@[irreducible] def Follows (lib : Library) (m : Mode) (p : SkillProgram α) : Prop :=
  Program.Follows (protocol lib) RaisesUnwritten m p.run

theorem follows_def {p : SkillProgram α} :
    Follows lib m p ↔ Program.Follows (protocol lib) RaisesUnwritten m p.run := by
  rw [Follows]

theorem follows_pure {x : α} : Follows lib m (pure x : SkillProgram α) := follows_def.mpr trivial

theorem follows_throw {e : PlatformError} (hm : m.HasWritten → m = .lost) :
    Follows lib m (throw e : SkillProgram α) :=
  follows_def.mpr hm

/-- A call that is lost does as it likes. -/
theorem follows_lost (p : SkillProgram α) : Follows lib .lost p := by
  rw [follows_def]
  generalize p.run = p
  induction p with
  | done result =>
      cases result with
      | ok x => trivial
      | error e => exact fun _ => rfl
  | act a next ih => exact ⟨trivial, ih⟩

theorem follows_check {β : Type} {x : Except PlatformError β} {f : β → SkillProgram α}
    (hm : m.HasWritten → m = .lost) (h : ∀ b, x = .ok b → Follows lib m (f b)) :
    Follows lib m (check x >>= f) := by
  cases x with
  | error e => exact follows_throw hm
  | ok b => exact h b rfl

theorem follows_ask {f : a.Answer → SkillProgram α}
    (ha : (protocol lib).allowed m a) (h : ∀ r, Follows lib ((protocol lib).move m a r) (f r)) :
    Follows lib m (ask a >>= f) :=
  follows_def.mpr ⟨ha, fun r => follows_def.mp (h r)⟩

theorem follows_writeCreation {initial : RevisionRow} {f : Unit → SkillProgram α}
    (ha : (protocol lib).allowed .reading (.create row initial))
    (h : Follows lib (.wrote row.clientId row.id) (f ())) :
    Follows lib .reading (writeCreation row initial >>= f) := by
  refine follows_def.mpr ⟨ha, fun result => ?_⟩
  cases result with
  | error e => exact fun h => h.elim
  | ok u => exact follows_def.mp h

theorem follows_writeRevision {c i : String} {change : Skills.Change}
    {f : Unit → SkillProgram α} (ha : (protocol lib).allowed (.found c i) (.revise change next))
    (h : Follows lib (.wrote change.clientId change.skillId) (f ())) :
    Follows lib (.found c i) (writeRevision change next >>= f) := by
  refine follows_def.mpr ⟨ha, fun result => ?_⟩
  cases result with
  | error e => exact fun h => h.elim
  | ok u => exact follows_def.mp h

theorem follows_get {clientId skillId : String} {f : SkillRecord → SkillProgram α}
    (h : ∀ record : SkillRecord, requireClient lib record.clientId = .ok record.clientId →
      validateIdentifier record.id "skill_id" = .ok record.id →
      Follows lib (.found record.clientId record.id) (f record)) :
    Follows lib .reading (get lib clientId skillId >>= f) := by
  simp only [get, bind_assoc]
  refine follows_check False.elim fun c hc => follows_check False.elim fun i hi => ?_
  refine follows_ask trivial fun answer => ?_
  cases answer with
  | none => exact follows_throw False.elim
  | some k =>
      by_cases hasked : Asked c i k
      · obtain ⟨rfl, rfl⟩ := hasked
        have hmove : (protocol lib).move .reading (.select k.clientId k.id) (some k) =
            .found k.clientId k.id := if_pos ⟨rfl, rfl⟩
        rw [hmove]
        simp only [bind_assoc]
        refine follows_ask trivial fun revision => ?_
        cases revision with
        | none => exact follows_throw False.elim
        | some r =>
            exact h { toSkillRow := k, revision := r.content lib } (requireClient_self hc)
              (validateIdentifier_self hi)
      · have hmove : (protocol lib).move .reading (.select c i) (some k) = .lost := if_neg hasked
        rw [hmove]
        exact follows_lost _

/-- The closing `get` of a call finds what the call has written. -/
theorem follows_readBack {c i : String} (hc : requireClient lib c = .ok c)
    (hi : validateIdentifier i "skill_id" = .ok i) : Follows lib (.wrote c i) (get lib c i) := by
  rw [get, hc, hi]
  refine follows_ask (a := .select c i) trivial fun answer => ?_
  cases answer with
  | none =>
      have hmove : (protocol lib).move (.wrote c i) (.select c i) none = .lost :=
        if_pos ⟨rfl, rfl⟩
      rw [hmove]
      exact follows_lost _
  | some k =>
      have hmove : (protocol lib).move (.wrote c i) (.select c i) (some k) =
          if Asked c i k then .selected i k.currentVersion else .lost := if_pos ⟨rfl, rfl⟩
      rw [hmove]
      split
      · refine follows_ask trivial fun revision => ?_
        cases revision with
        | none =>
            have hmove : (protocol lib).move (.selected i k.currentVersion)
                (.revision i k.currentVersion) none = .lost := if_pos ⟨rfl, rfl, rfl⟩
            rw [hmove]
            exact follows_lost _
        | some r => exact follows_pure
      · exact follows_lost _

theorem follows_create (request : CreateRequest) (uuid : BitVec 128) (now : String) :
    Follows lib .reading (create lib request uuid now) := by
  refine follows_check False.elim fun row hrow => ?_
  refine follows_check False.elim fun payload hpayload => ?_
  simp only [CreateRequest.row, bind_eq_ok, pure_eq_ok] at hrow
  obtain ⟨clientId, hclient, _, -, _, -, _, -, rfl⟩ := hrow
  refine follows_writeCreation ⟨rfl, rfl, rfl, ?_⟩ ?_
  · exact digested_row (sound_revisionPayload hpayload) _ _ _ _
  · exact follows_readBack (requireClient_self hclient) (validateIdentifier_uuidText uuid)

theorem follows_update (request : UpdateRequest) (now : String) :
    Follows lib .reading (update lib request now) := by
  refine follows_get fun current hclient hid => ?_
  split
  · refine follows_check False.elim fun change hchange => ?_
    refine follows_check False.elim fun payload hpayload => ?_
    simp only [UpdateRequest.change, bind_eq_ok, pure_eq_ok] at hchange
    obtain ⟨_, -, _, -, rfl⟩ := hchange
    refine follows_ask trivial fun version => ?_
    split
    · refine follows_writeRevision ⟨rfl, rfl, ?_⟩ (follows_readBack hclient hid)
      exact digested_row (sound_revisionPayload hpayload) _ _ _ _
    · exact follows_throw False.elim
  · exact follows_throw False.elim

theorem follows_archive (clientId skillId now : String) :
    Follows lib .reading (archive lib clientId skillId now) := by
  refine follows_get fun current hclient hid => ?_
  split
  · exact follows_pure
  · exact follows_ask ⟨rfl, rfl⟩ fun _ => follows_readBack hclient hid

theorem follows_call (call : SkillCall) : Follows lib .reading (call.program lib) := by
  cases call with
  | create request uuid now => exact follows_create request uuid now
  | update request now => exact follows_update request now
  | archive clientId skillId now => exact follows_archive clientId skillId now

end Follows

/-! ### Runs -/

section Runs

variable {W : Type} [DecidableEq W]

/-- What a call knows is true. -/
def ModeHolds (s : Skills) : Mode → Prop
  | .reading => True
  | .found c i | .wrote c i => ∃ k ∈ s.skills, Asked c i k
  | .selected i v => ∃ r ∈ s.revisions, r.key = (i, v)
  | .lost => False

structure Invariant (lib : Library) (s : Skills) (modes : W → Mode) : Prop where
  revised : s.Revised lib
  modes : ∀ w, ModeHolds s (modes w)

omit [DecidableEq W] in
variable {m : Mode}

theorem ModeHolds.of_keeps (h : ModeHolds s m) (hkeeps : Skills.KeepsSkills s t)
    (hrows : ∀ r ∈ s.revisions, r ∈ t.revisions) : ModeHolds t m := by
  have hskill : ∀ c i, (∃ k ∈ s.skills, Asked c i k) → ∃ k ∈ t.skills, Asked c i k := by
    rintro c i ⟨k, hk, hid, hclient⟩
    obtain ⟨k', hk', hid', hclient', -⟩ := hkeeps k hk
    exact ⟨k', hk', hid'.trans hid, hclient'.trans hclient⟩
  cases m with
  | reading => trivial
  | found c i => exact hskill c i h
  | wrote c i => exact hskill c i h
  | selected i v =>
      obtain ⟨r, hr, hkey⟩ := h
      exact ⟨r, hrows r hr, hkey⟩
  | lost => exact h

theorem Invariant.update {modes : W → Mode} {w : W} (hrevised : t.Revised lib)
    (hmodes : ∀ w, ModeHolds t (modes w)) (hm : ModeHolds t m) :
    Invariant lib t (Function.update modes w m) := by
  refine ⟨hrevised, fun w' => ?_⟩
  by_cases hw : w' = w
  · rw [hw, Function.update_self]
    exact hm
  · rw [Function.update_of_ne hw]
    exact hmodes w'

theorem select_eq_some {clientId skillId : String}
    (h : s.select clientId skillId = some k) : k ∈ s.skills ∧ Asked clientId skillId k := by
  obtain ⟨hfind, hclient⟩ := Option.filter_eq_some_iff.mp h
  obtain ⟨hk, hid⟩ := Table.find?_eq_some_iff.mp hfind
  exact ⟨hk, hid, by simpa using hclient⟩

theorem select_of_asked {clientId skillId : String} (hk : k ∈ s.skills)
    (hasked : Asked clientId skillId k) : s.select clientId skillId = some k := by
  rw [Skills.select, Table.find?_eq_some_iff.mpr ⟨hk, hasked.1⟩]
  simp [hasked.2]

/-- Where a statement leads. -/
structure Leads (lib : Library) (s : Skills) (m : Mode) (a : SkillAction) : Prop where
  revised : (a.answer s ()).2.Revised lib
  keeps : Skills.KeepsSkills s (a.answer s ()).2
  rows : ∀ r ∈ s.revisions, r ∈ (a.answer s ()).2.revisions
  mode : ModeHolds (a.answer s ()).2 ((protocol lib).move m a (a.answer s ()).1)
  written : m.HasWritten ∨ (a.answer s ()).2 ≠ s →
    ((protocol lib).move m a (a.answer s ()).1).HasWritten

theorem leads_of_read (h : s.Revised lib)
    (hsame : (a.answer s ()).2 = s)
    (hmode : ModeHolds s ((protocol lib).move m a (a.answer s ()).1))
    (hwritten : m.HasWritten → ((protocol lib).move m a (a.answer s ()).1).HasWritten) :
    Leads lib s m a := by
  refine ⟨?_, ?_, ?_, ?_, ?_⟩ <;> rw [hsame]
  · exact h
  · exact .refl s
  · exact fun r hr => hr
  · exact hmode
  · exact fun hw => hwritten (hw.resolve_right fun hne => hne rfl)

theorem leads_select (h : s.Revised lib) (hm : ModeHolds s m)
    (clientId skillId : String) : Leads lib s m (.select clientId skillId) := by
  refine leads_of_read h rfl ?_ ?_
  · cases m with
    | reading =>
        cases hselect : s.select clientId skillId with
        | none => simp [SkillAction.answer, hselect, protocol, ModeHolds]
        | some k =>
            obtain ⟨hk, hasked⟩ := select_eq_some hselect
            simp only [SkillAction.answer, hselect, protocol, if_pos hasked]
            exact ⟨k, hk, hasked⟩
    | wrote c i =>
        obtain ⟨k, hk, hasked⟩ := hm
        simp only [SkillAction.answer, protocol]
        split
        · next hsame =>
            obtain ⟨rfl, rfl⟩ := hsame
            rw [select_of_asked hk hasked]
            simp only [if_pos hasked]
            obtain ⟨r, hr, hkey⟩ := h.current hk
            exact ⟨r, hr, by rw [hkey, hasked.1]⟩
        · exact ⟨k, hk, hasked⟩
    | found c i => exact hm
    | selected i v => exact hm
    | lost => exact hm
  · cases m with
    | wrote c i =>
        simp only [protocol]
        split
        · split
          · split <;> exact fun _ => trivial
          · exact fun _ => trivial
        · exact id
    | reading => exact False.elim
    | found c i => exact False.elim
    | selected i v => exact id
    | lost => exact id

theorem leads_revision (h : s.Revised lib) (hm : ModeHolds s m) (skillId : String)
    (version : ℕ) : Leads lib s m (.revision skillId version) := by
  refine leads_of_read h rfl ?_ ?_
  · cases m with
    | selected i v =>
        obtain ⟨r, hr, hkey⟩ := hm
        simp only [SkillAction.answer, protocol]
        split
        · next hmissed =>
            obtain ⟨rfl, rfl, hnone⟩ := hmissed
            rw [Table.find?_eq_some_iff.mpr ⟨hr, hkey⟩] at hnone
            cases hnone
        · exact ⟨r, hr, hkey⟩
    | _ => exact hm
  · cases m with
    | selected i v =>
        simp only [protocol]
        split <;> exact fun _ => trivial
    | _ => exact id

/-- What every statement that a call is allowed leads to. -/
theorem leads_act (h : s.Revised lib) (hm : ModeHolds s m)
    (hallowed : (protocol lib).allowed m a) : Leads lib s m a := by
  cases a with
  | select clientId skillId => exact leads_select h hm clientId skillId
  | revision skillId version => exact leads_revision h hm skillId version
  | currentVersion clientId skillId =>
      refine leads_of_read h rfl ?_ ?_
      · cases m <;> exact hm
      · cases m <;> exact id
  | create row initial =>
      cases m with
      | lost => exact hm.elim
      | found c i => exact hallowed.elim
      | wrote c i => exact hallowed.elim
      | selected i v => exact hallowed.elim
      | reading =>
          obtain ⟨hfirst, hskill, hversion, hdigested⟩ := hallowed
          cases hcreate : s.create row initial with
          | error e =>
              refine leads_of_read h ?_ ?_ False.elim <;>
                simp [SkillAction.answer, hcreate, commit, protocol, ModeHolds]
          | ok s' =>
              obtain ⟨hskills, hrows, -⟩ := Skills.create_eq_ok hcreate
              have hanswer : (SkillAction.create row initial).answer s () = (.ok (), s') := by
                simp [SkillAction.answer, hcreate, commit]
              refine ⟨?_, ?_, ?_, ?_, ?_⟩ <;> rw [hanswer]
              · exact h.create hcreate hfirst hskill hversion hdigested
              · exact Skills.keepsSkills_create hcreate
              · exact fun r hr => (Skills.mem_of_rows hrows).mpr (.inl hr)
              · refine ⟨row, ?_, rfl, rfl⟩
                rw [Table.mem_def, hskills]
                simp
              · exact fun _ => trivial
  | revise change next =>
      cases m with
      | lost => exact hm.elim
      | reading => exact hallowed.elim
      | wrote c i => exact hallowed.elim
      | selected i v => exact hallowed.elim
      | found c i =>
          obtain ⟨hskill, hversion, hdigested⟩ := hallowed
          cases hrevise : s.revise change next with
          | error e =>
              refine leads_of_read h ?_ ?_ False.elim
              · simp [SkillAction.answer, hrevise, commit]
              · simpa [SkillAction.answer, hrevise, commit, protocol] using hm
          | ok s' =>
              obtain ⟨hskills, hrows, k, hk, hmeets⟩ := Skills.revise_eq_ok hrevise
              obtain ⟨hid, hclient, -⟩ := Skills.meets_iff.mp hmeets
              have hanswer : (SkillAction.revise change next).answer s () = (.ok (), s') := by
                simp [SkillAction.answer, hrevise, commit]
              refine ⟨?_, ?_, ?_, ?_, ?_⟩ <;> rw [hanswer]
              · exact h.revise hrevise hskill hversion hdigested
              · exact Skills.keepsSkills_revise hrevise
              · exact fun r hr => (Skills.mem_of_rows hrows).mpr (.inl hr)
              · obtain ⟨k', hk', hid', hclient', -⟩ := Skills.keepsSkills_revise hrevise k hk
                exact ⟨k', hk', hid'.trans hid, hclient'.trans hclient⟩
              · exact fun _ => trivial
  | archive clientId skillId now =>
      cases m with
      | lost => exact hm.elim
      | reading => exact hallowed.elim
      | wrote c i => exact hallowed.elim
      | selected i v => exact hallowed.elim
      | found c i =>
          obtain ⟨k, hk, hid, hclient⟩ := hm
          have hkeeps := Skills.keepsSkills_archive (s := s) clientId skillId now
          obtain ⟨k', hk', hid', hclient', -⟩ := hkeeps k hk
          exact ⟨h.archive clientId skillId now, hkeeps, fun r hr => hr,
            ⟨k', hk', hid'.trans hid, hclient'.trans hclient⟩, fun _ => trivial⟩

theorem Invariant.act {modes : W → Mode} {w : W} (h : Invariant lib s modes)
    (hallowed : (protocol lib).allowed (modes w) a) :
    Invariant lib (a.answer s ()).2
      (Function.update modes w ((protocol lib).move (modes w) a (a.answer s ()).1)) := by
  have hleads := leads_act h.revised (h.modes w) hallowed
  exact .update hleads.revised (fun w' => (h.modes w').of_keeps hleads.keeps hleads.rows)
    hleads.mode

/-- The calls under way keep to the protocol, and know what is true. -/
def Tracked (lib : Library) (p : SkillPool W) : Prop :=
  ∃ modes, Program.Reported (fun _ => protocol lib) RaisesUnwritten .reading Mode.HasWritten p
    modes ∧ Invariant lib p.shared modes

theorem tracked_step {p : SkillPool W} (h : Tracked lib p)
    (l : Program.PoolStep W SkillCall Unit) : Tracked lib ((skillCalls W lib).step p l) :=
  Program.watched_step (I := Invariant lib) (fun call => follows_def.mp (follows_call call))
    (fun _ _ _ hI => .update hI.revised hI.modes trivial) (fun _ _ _ _ _ _ hI ha => hI.act ha)
    (fun _ _ w _ _ _ hI ha hchanged =>
      (leads_act hI.revised (hI.modes w) ha).written hchanged) h

theorem tracked_init : Tracked lib (skillCalls W lib).init :=
  ⟨fun _ => .reading, ⟨fun _ => rfl, fun _ _ h => by cases h⟩, Skills.revised_empty lib,
    fun _ => trivial⟩

/-- A call that has raised has changed nothing. -/
def RefusedClean (p : SkillPool W) : Prop :=
  ∀ w call e, p.threads w = some (call, .done (.error e)) → ¬ p.changed w

omit [DecidableEq W] in
theorem Tracked.refusedClean {p : SkillPool W} (h : Tracked lib p) : RefusedClean p := by
  intro w call e hthread hchanged
  obtain ⟨modes, hreported, hinvariant⟩ := h
  have hwritten := hreported.changes w _ hthread hchanged
  have hraised := hreported.reports w
  rw [hthread] at hraised
  have hlost : modes w = .lost := hraised hwritten
  have hmode := hinvariant.modes w
  rw [hlost] at hmode
  exact hmode

/-- An update that is about to be committed finds its skill active. -/
def FindsActive (s : Skills) : SkillAction → Prop
  | .revise change _ => ∀ k ∈ s.skills, k.id = change.skillId → k.clientId = change.clientId →
      k.currentVersion = change.base → k.status = .active
  | _ => True

def StepsFindActive (p : SkillPool W) : Program.PoolStep W SkillCall Unit → Prop
  | .start _ _ => True
  | .act w _ => ∀ next ∈ p.next? w, FindsActive p.shared next.2

theorem frozen_answer_iff (h : s.Revised lib) (hm : ModeHolds s m)
    (hallowed : (protocol lib).allowed m a) :
    Skills.Frozen s (a.answer s ()).2 ↔ FindsActive s a := by
  have hkeeps := (leads_act h hm hallowed).keeps
  cases a with
  | select clientId skillId => exact iff_of_true (.refl s) trivial
  | revision skillId version => exact iff_of_true (.refl s) trivial
  | currentVersion clientId skillId => exact iff_of_true (.refl s) trivial
  | archive clientId skillId now =>
      exact iff_of_true (Skills.frozen_of_revisions hkeeps fun r hr _ => hr) trivial
  | create row initial =>
      refine iff_of_true ?_ trivial
      cases hcreate : s.create row initial with
      | error e => simpa [SkillAction.answer, hcreate, commit] using Skills.Frozen.refl s
      | ok s' =>
          have hanswer : ((SkillAction.create row initial).answer s ()).2 = s' := by
            simp [SkillAction.answer, hcreate, commit]
          rw [hanswer] at hkeeps ⊢
          obtain ⟨-, hrows, hnew⟩ := Skills.create_eq_ok hcreate
          refine Skills.frozen_of_revisions hkeeps fun r hr hskill => ?_
          rcases (Skills.mem_of_rows hrows).mp hr with hold | rfl
          · exact hold
          · obtain ⟨k, hk, hid⟩ := hskill
            have hinitial : r.skillId = row.id := by
              cases m with
              | reading => exact hallowed.2.1
              | lost => exact hm.elim
              | _ => exact hallowed.elim
            exact absurd (hid.trans hinitial) (hnew k hk)
  | revise change next =>
      have hnext : next.skillId = change.skillId ∧ next.version = change.base + 1 := by
        cases m with
        | found c i => exact ⟨hallowed.1, hallowed.2.1⟩
        | lost => exact hm.elim
        | _ => exact hallowed.elim
      have hmeets : FindsActive s (.revise change next) ↔
          ∀ k ∈ s.skills, change.meets k = true → k.status = .active := by
        simp only [FindsActive, Skills.meets_iff, and_imp]
      rw [hmeets]
      cases hrevise : s.revise change next with
      | error e =>
          have hanswer : ((SkillAction.revise change next).answer s ()).2 = s := by
            simp [SkillAction.answer, hrevise, commit]
          rw [hanswer]
          refine iff_of_true (.refl s) fun k hk hmeets => ?_
          obtain ⟨hid, -, hbase⟩ := Skills.meets_iff.mp hmeets
          have hkey : next.key = (k.id, k.currentVersion + 1) :=
            Prod.ext (hnext.1.trans hid.symm) (by rw [hbase]; exact hnext.2)
          obtain ⟨t, ht⟩ := Skills.exists_revise hk hmeets hnext.1 fun r hr => by
            rw [hkey]
            exact h.free hk hr
          rw [ht] at hrevise
          cases hrevise
      | ok s' =>
          have hanswer : ((SkillAction.revise change next).answer s ()).2 = s' := by
            simp [SkillAction.answer, hrevise, commit]
          rw [hanswer]
          exact Skills.frozen_revise_iff h hrevise hnext.1 hnext.2

/-- In every run, and between any two of its states: the revisions of each skill are counted up to
its current version and have the digests of what they say, the calls that have raised have changed
nothing, and what is archived gets no more revisions. This is so exactly in the runs in which no
update is committed to an archived skill. -/
theorem revised_iff_findsActive (W : Type) [DecidableEq W] (lib : Library)
    (ls : List (Program.PoolStep W SkillCall Unit)) :
    (∀ ks ms, ks <+: ms → ms <+: ls →
      ((skillCalls W lib).run ms).shared.Revised lib ∧ RefusedClean ((skillCalls W lib).run ms) ∧
        Skills.Frozen ((skillCalls W lib).run ks).shared ((skillCalls W lib).run ms).shared) ↔
      (skillCalls W lib).Guarded StepsFindActive ls := by
  have hkept : ∀ p : SkillPool W, Tracked lib p → p.shared.Revised lib ∧ RefusedClean p :=
    fun p hp => ⟨hp.choose_spec.2.revised, hp.refusedClean⟩
  have hstart := hkept (skillCalls W lib).init tracked_init
  refine Machine.forall_prefixes_iff_guarded (J := Tracked lib)
    (R := fun p q => q.shared.Revised lib ∧ RefusedClean q ∧ Skills.Frozen p.shared q.shared)
    ⟨hstart.1, hstart.2, .refl _⟩ (fun p q r hpq hqr => ⟨hqr.1, hqr.2.1, hpq.2.2.trans hqr.2.2⟩)
    (fun p q h => ⟨h.1, h.2.1, .refl _⟩) tracked_init (fun p l h => tracked_step h l) ?_ ls
  intro p l hp _
  obtain ⟨hrevised, hclean⟩ := hkept _ (tracked_step hp l)
  rw [and_iff_right hrevised, and_iff_right hclean]
  obtain ⟨modes, hreported, hinvariant⟩ := hp
  cases l with
  | start w call =>
      refine iff_of_true ?_ trivial
      simp only [skillCalls, Program.watched, Program.Watched.step, Program.Pool.step]
      split <;> exact .refl _
  | act w input =>
      simp only [skillCalls, Program.watched, Program.Watched.step, Program.Pool.step,
        StepsFindActive, Program.Pool.next?]
      have hreports := hreported.reports w
      cases hw : p.threads w with
      | none => simpa using Skills.Frozen.refl p.shared
      | some thread =>
          obtain ⟨call, left⟩ := thread
          rw [hw] at hreports
          cases left with
          | done result => simpa [Program.head?] using Skills.Frozen.refl p.shared
          | act a next =>
              have hiff := frozen_answer_iff hinvariant.revised (hinvariant.modes w) hreports.1
              simpa [Program.head?] using hiff

end Runs

section Example

def exampleCreate : SkillCall :=
  .create
    { clientId := "shire", name := "Printer", slug := "printer", description := ""
      instructions := "Restart the spooler.", allowedTools := [], inputSchema := []
      resources := [], actor := none, catalog := [] }
    0 "2026-07-01T09:00:00+00:00"

def exampleSkill : String := "00000000-0000-0000-0000-000000000000"

def exampleUpdate : SkillCall :=
  .update
    { clientId := "shire", skillId := exampleSkill, actor := none, name := none
      description := none, instructions := some "Restart the queue.", allowedTools := none
      inputSchema := none, resources := none, catalog := [] }
    "2026-07-01T09:00:02+00:00"

def exampleArchive : SkillCall := .archive "shire" exampleSkill "2026-07-01T09:00:01+00:00"

/-- An update has found the skill active, which another caller archives. -/
def archivedSteps : List (Program.PoolStep Bool SkillCall Unit) :=
  [.start true exampleCreate] ++ List.replicate 4 (.act true ()) ++
    [.start true exampleUpdate] ++ List.replicate 2 (.act true ()) ++
    [.start false exampleArchive] ++ List.replicate 3 (.act false ())

def revisedSteps : List (Program.PoolStep Bool SkillCall Unit) :=
  archivedSteps ++ List.replicate 2 (.act true ())

/-- An archived skill gets a revision. -/
theorem not_revised : ¬ ∀ (W : Type) [DecidableEq W] (lib : Library)
    (ls : List (Program.PoolStep W SkillCall Unit)) (ks ms : _), ks <+: ms → ms <+: ls →
      ((skillCalls W lib).run ms).shared.Revised lib ∧ RefusedClean ((skillCalls W lib).run ms) ∧
        Skills.Frozen ((skillCalls W lib).run ks).shared
          ((skillCalls W lib).run ms).shared := by
  intro hall
  have hfrozen := (hall Bool exampleLibrary revisedSteps archivedSteps _
    (List.prefix_append _ _) (List.prefix_refl _)).2.2
  have hsummary : (((skillCalls Bool exampleLibrary).run archivedSteps).shared.skills.rows.any
      fun k => k.id == exampleSkill && k.status == .archived) = true ∧
      ((skillCalls Bool exampleLibrary).run archivedSteps).shared.revisions.rows.all
        (fun r => r.version == 1) = true ∧
      (((skillCalls Bool exampleLibrary).run revisedSteps).shared.revisions.rows.any
        fun r => r.skillId == exampleSkill && r.version == 2) = true := by decide
  obtain ⟨harchived, hfirst, hsecond⟩ := hsummary
  simp only [List.any_eq_true, List.all_eq_true, Bool.and_eq_true, beq_iff_eq] at *
  obtain ⟨k, hk, hid, hstatus⟩ := harchived
  obtain ⟨r, hr, hskill, hversion⟩ := hsecond
  have hold := (hfrozen k hk hstatus).2 r hr (hskill.trans hid.symm)
  rw [hfirst r hold] at hversion
  cases hversion

end Example

end WaitLocalAgent.AgentSkills
