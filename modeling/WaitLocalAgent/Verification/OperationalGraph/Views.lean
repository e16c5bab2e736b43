import WaitLocalAgent.Foundation.Fallible
import WaitLocalAgent.Foundation.Levels
import WaitLocalAgent.Model.OperationalGraph

/-! # What a view of the operational graph shows -/

namespace WaitLocalAgent.OperationalGraph

open Foundation

variable {s : GraphStore} {scope : Option ScopeArgument} {admits : Option ClientId → Bool}

/-! ## The graph of a scope -/

def Scoped (s : GraphStore) (admits : Option ClientId → Bool) (ref : EntityRef) : Prop :=
  ref ∈ s.externalEntityRefs ∧ admits (some ref.clientId) = true

/-- A link within the scope, as both its ends are. -/
def Linked (s : GraphStore) (admits : Option ClientId → Bool) (link : EntityLink) : Prop :=
  (link ∈ s.entityLinks ∧ admits (some link.clientId) = true) ∧
    (∃ ref, Scoped s admits ref ∧ ref.id = link.fromRefId) ∧
      ∃ ref, Scoped s admits ref ∧ ref.id = link.toRefId

/-- The references of a scope, joined where a link of the scope goes from one to the other. -/
def relations (s : GraphStore) (admits : Option ClientId → Bool) : SimpleGraph ℤ :=
  .fromRel fun a b => ∃ link, Linked s admits link ∧ link.fromRefId = a ∧ link.toRefId = b

def Incident (link : EntityLink) (a : ℤ) : Prop := link.fromRefId = a ∨ link.toRefId = a

/-- The references of a scope that are at most `depth` links from the root. -/
def near (s : GraphStore) (admits : Option ClientId → Bool) (root : ℤ) (depth : ℕ) :
    Set EntityRef :=
  {ref | Scoped s admits ref ∧ (relations s admits).edist root ref.id ≤ depth}

/-- A link of `a`, with the reference at its other end. -/
def Beside (s : GraphStore) (admits : Option ClientId → Bool) (a : ℤ)
    (step : EntityLink × EntityRef) : Prop :=
  Linked s admits step.1 ∧ Scoped s admits step.2 ∧
    (step.1.fromRefId = a ∧ step.1.toRefId = step.2.id ∨
      step.1.toRefId = a ∧ step.1.fromRefId = step.2.id)

theorem Scoped.eq_of_id_eq {ref other : EntityRef} (h : Scoped s admits ref)
    (hother : Scoped s admits other) (hid : ref.id = other.id) : ref = other :=
  Table.eq_of_key_eq h.1 hother.1 hid

variable {a : ℤ}

theorem Linked.exists_beside {link : EntityLink} (h : Linked s admits link)
    (ha : Incident link a) : ∃ ref, Beside s admits a (link, ref) := by
  rcases ha with ha | ha
  · obtain ⟨ref, href, hid⟩ := h.2.2
    exact ⟨ref, h, href, .inl ⟨ha, hid.symm⟩⟩
  · obtain ⟨ref, href, hid⟩ := h.2.1
    exact ⟨ref, h, href, .inr ⟨ha, hid.symm⟩⟩

theorem Linked.exists_scoped {link : EntityLink} (h : Linked s admits link)
    (ha : Incident link a) : ∃ ref, Scoped s admits ref ∧ ref.id = a := by
  rcases ha with rfl | rfl
  · exact h.2.1
  · exact h.2.2

theorem Beside.incident {step : EntityLink × EntityRef} (h : Beside s admits a step) :
    Incident step.1 a :=
  h.2.2.imp And.left And.left

theorem relations_adj_iff {a b : ℤ} :
    (relations s admits).Adj a b ↔ a ≠ b ∧ ∃ step, Beside s admits a step ∧ step.2.id = b := by
  rw [relations, SimpleGraph.fromRel_adj]
  refine and_congr_right fun _ => ⟨?_, ?_⟩
  · rintro (⟨link, hlink, hfrom, hto⟩ | ⟨link, hlink, hfrom, hto⟩)
    · obtain ⟨ref, href, hid⟩ := hlink.2.2
      exact ⟨(link, ref), ⟨hlink, href, .inl ⟨hfrom, hid.symm⟩⟩, hid.trans hto⟩
    · obtain ⟨ref, href, hid⟩ := hlink.2.1
      exact ⟨(link, ref), ⟨hlink, href, .inr ⟨hto, hid.symm⟩⟩, hid.trans hfrom⟩
  · rintro ⟨step, ⟨hlink, -, ⟨hfrom, hto⟩ | ⟨hto, hfrom⟩⟩, rfl⟩
    · exact .inl ⟨step.1, hlink, hfrom, hto⟩
    · exact .inr ⟨step.1, hlink, hfrom, hto⟩

/-- Only references of the scope can be reached from another one. -/
theorem exists_scoped_of_edist_le {root a : ℤ} {depth : ℕ} (hne : a ≠ root)
    (h : (relations s admits).edist root a ≤ depth) :
    (∃ ref, Scoped s admits ref ∧ ref.id = root) ∧ ∃ ref, Scoped s admits ref ∧ ref.id = a := by
  induction depth generalizing a with
  | zero => exact absurd (by simpa using h) hne.symm
  | succ depth ih =>
      rcases edist_le_succ_iff.mp h with h | ⟨b, hb, hadj⟩
      · exact ih hne h
      · obtain ⟨-, step, hstep, hid⟩ := relations_adj_iff.mp hadj
        obtain ⟨-, back, hback, hbid⟩ := relations_adj_iff.mp hadj.symm
        refine ⟨?_, step.2, hstep.2.1, hid⟩
        by_cases hroot : b = root
        · exact ⟨back.2, hback.2.1, hbid.trans hroot⟩
        · exact (ih hroot hb.le).1

/-! ## What the reads of the store return -/

theorem getEntityRef_eq (hscope : clientScopePredicate scope = .ok admits) (refId : ℤ) :
    s.getEntityRef scope refId = .ok (s.externalEntityRefs.rows.find? fun ref =>
      ref.id = refId && admits (some ref.clientId)) := by
  rw [GraphStore.getEntityRef, hscope, ok_bind]
  rfl

theorem find?_scoped_iff {refId : ℤ} {ref : EntityRef} :
    (s.externalEntityRefs.rows.find? fun ref => ref.id = refId && admits (some ref.clientId)) =
      some ref ↔ Scoped s admits ref ∧ ref.id = refId := by
  constructor
  · intro h
    have hfound := List.find?_some h
    simp only [Bool.and_eq_true, decide_eq_true_eq] at hfound
    exact ⟨⟨List.mem_of_find?_eq_some h, hfound.2⟩, hfound.1⟩
  · rintro ⟨href, hid⟩
    cases h : s.externalEntityRefs.rows.find? fun ref =>
        ref.id = refId && admits (some ref.clientId) with
    | none =>
        have hnone := List.find?_eq_none.mp h ref href.1
        simp [hid, href.2] at hnone
    | some other =>
        have hfound := List.find?_some h
        simp only [Bool.and_eq_true, decide_eq_true_eq] at hfound
        have hother : Scoped s admits other := ⟨List.mem_of_find?_eq_some h, hfound.2⟩
        rw [hother.eq_of_id_eq href (hfound.1.trans hid.symm)]

theorem exists_listEntityLinks (hscope : clientScopePredicate scope = .ok admits) (a : ℤ) :
    ∃ links, s.listEntityLinks scope a = .ok links ∧
      ∀ link, link ∈ links ↔ Linked s admits link ∧ Incident link a := by
  refine ⟨_, by rw [GraphStore.listEntityLinks, hscope, ok_bind]; rfl, fun link => ?_⟩
  rw [List.mem_insertionSort, List.mem_filter]
  simp only [Bool.and_eq_true, Bool.or_eq_true, decide_eq_true_eq, List.any_eq_true, Linked,
    Incident, Scoped, Table.mem_def]
  tauto

/-- The reference at the other end of a link of `a`, as it is read. -/
def opposite (s : GraphStore) (admits : Option ClientId → Bool) (a : ℤ) (link : EntityLink) :
    Option (EntityLink × EntityRef) :=
  (s.externalEntityRefs.rows.find? fun ref =>
    ref.id = (if link.fromRefId = a then link.toRefId else link.fromRefId) &&
      admits (some ref.clientId)).map fun ref => (link, ref)

theorem opposite_eq_some_iff {link : EntityLink} {step : EntityLink × EntityRef}
    (hlink : Linked s admits link) (ha : Incident link a) :
    opposite s admits a link = some step ↔ step.1 = link ∧ Beside s admits a step := by
  rw [opposite, Option.map_eq_some_iff]
  constructor
  · rintro ⟨ref, href, rfl⟩
    obtain ⟨hscoped, hid⟩ := find?_scoped_iff.mp href
    refine ⟨rfl, hlink, hscoped, ?_⟩
    by_cases hfrom : link.fromRefId = a
    · rw [if_pos hfrom] at hid
      exact .inl ⟨hfrom, hid.symm⟩
    · rw [if_neg hfrom] at hid
      exact .inr ⟨ha.resolve_left hfrom, hid.symm⟩
  · rintro ⟨rfl, -, hscoped, hends⟩
    refine ⟨step.2, find?_scoped_iff.mpr ⟨hscoped, ?_⟩, rfl⟩
    rcases hends with ⟨hfrom, hto⟩ | ⟨hto, hfrom⟩
    · rw [if_pos hfrom, hto]
    · split
      · next h => rw [hto, ← hfrom, h]
      · exact hfrom.symm

theorem exists_neighbors (hscope : clientScopePredicate scope = .ok admits) (a : ℤ) :
    ∃ found, s.neighbors scope a = .ok found ∧ ∀ step, step ∈ found ↔ Beside s admits a step := by
  obtain ⟨links, hlinks, hmem⟩ := exists_listEntityLinks (s := s) hscope a
  refine ⟨(links.map (opposite s admits a)).reduceOption, ?_, fun step => ?_⟩
  · rw [GraphStore.neighbors, hlinks, ok_bind]
    simp only [getEntityRef_eq hscope, ok_bind]
    exact congrArg (· >>= fun found => Except.ok found.reduceOption) List.mapM_pure
  · rw [List.reduceOption_mem_iff, List.mem_map]
    constructor
    · rintro ⟨link, hlink, hstep⟩
      obtain ⟨hlinked, ha⟩ := (hmem link).mp hlink
      exact ((opposite_eq_some_iff hlinked ha).mp hstep).2
    · intro hstep
      exact ⟨step.1, (hmem step.1).mpr ⟨hstep.1, hstep.incident⟩,
        (opposite_eq_some_iff hstep.1 hstep.incident).mpr ⟨rfl, hstep⟩⟩

/-! ## One round -/

def Traversal.ids (t : Traversal) : Set ℤ := {a | ∃ ref ∈ t.refsById, ref.id = a}

/-- Everything found lies in the scope, with both ends of every link, and is within the bound. -/
structure Traversal.Inside (s : GraphStore) (admits : Option ClientId → Bool)
    (effectiveNodes : ℤ) (t : Traversal) : Prop where
  refs : ∀ ref ∈ t.refsById, Scoped s admits ref
  links : ∀ link ∈ t.linksById, Linked s admits link ∧ link.fromRefId ∈ t.ids ∧
    link.toRefId ∈ t.ids
  frontier : ∀ a ∈ t.nextFrontier, a ∈ t.ids
  size : t.refsById.rows.length ≤ effectiveNodes

section Round

variable {effectiveNodes : ℤ} {t : Traversal} {step : EntityLink × EntityRef} {a : ℤ}

theorem mem_withLink (hlinks : ∀ link ∈ t.linksById, Linked s admits link) {link other : EntityLink}
    (hlink : Linked s admits link) :
    other ∈ (t.withLink link).linksById ↔ other ∈ t.linksById ∨ other = link := by
  have hmem : ∀ table : Table EntityLink.id, other ∈ table ↔ table.find? other.id = some other :=
    fun table => ⟨Table.find?_key, Table.mem_of_find?_eq_some⟩
  rw [Traversal.withLink, hmem, hmem, Table.find?_upsert]
  by_cases hid : other.id = link.id
  · rw [if_pos hid, hid]
    cases hrow : t.linksById.find? link.id with
    | none => simp [eq_comm]
    | some row =>
        have hrowid := Table.key_of_find?_eq_some hrow
        have hsame : row = link := Table.eq_of_key_eq
          (hlinks row (Table.mem_of_find?_eq_some hrow)).1.1 hlink.1.1 hrowid
        subst hsame
        show some row = some other ↔ some row = some other ∨ other = row
        simp [eq_comm]
  · have hne : other ≠ link := fun h => hid (congrArg EntityLink.id h)
    rw [if_neg hid]
    simp [hne]

theorem follow_of_found (h : step.2.id ∈ t.ids) :
    t.follow effectiveNodes step = t.withLink step.1 := by
  obtain ⟨ref, href, hid⟩ := h
  rw [Traversal.follow]
  cases hinsert : t.refsById.insert? step.2 with
  | none => rfl
  | some table =>
      obtain ⟨hnew, -⟩ := Table.insert?_eq_some_iff.mp hinsert
      exact absurd hid (hnew ref href)

theorem follow_of_new (h : step.2.id ∉ t.ids) :
    ∃ table : Table EntityRef.id, (∀ ref, ref ∈ table ↔ ref ∈ t.refsById ∨ ref = step.2) ∧
      table.rows.length = t.refsById.rows.length + 1 ∧
      t.follow effectiveNodes step =
        if effectiveNodes ≤ t.refsById.rows.length then t
        else Traversal.withLink ⟨table, t.linksById, t.nextFrontier ++ [step.2.id]⟩ step.1 := by
  have hnew : ∀ ref ∈ t.refsById, ref.id ≠ step.2.id := fun ref href hid => h ⟨ref, href, hid⟩
  refine ⟨t.refsById.insert step.2 hnew, fun ref => Table.mem_insert, by simp, ?_⟩
  rw [Traversal.follow, Table.insert?_eq_some_iff.mpr ⟨hnew, rfl⟩]

/-- A round for a reference beside one that was found keeps to the scope and the bound. -/
theorem Traversal.Inside.follow (ht : t.Inside s admits effectiveNodes) (ha : a ∈ t.ids)
    (hstep : Beside s admits a step) :
    (t.follow effectiveNodes step).Inside s admits effectiveNodes ∧
      t.ids ⊆ (t.follow effectiveNodes step).ids := by
  have hends : ∀ ids : Set ℤ, a ∈ ids → step.2.id ∈ ids →
      step.1.fromRefId ∈ ids ∧ step.1.toRefId ∈ ids := by
    intro ids ha hid
    rcases hstep.2.2 with ⟨hfrom, hto⟩ | ⟨hto, hfrom⟩
    · rw [hfrom, hto]
      exact ⟨ha, hid⟩
    · rw [hfrom, hto]
      exact ⟨hid, ha⟩
  by_cases hid : step.2.id ∈ t.ids
  · rw [follow_of_found hid]
    refine ⟨⟨ht.refs, fun link hlink => ?_, ht.frontier, ht.size⟩, Set.Subset.rfl⟩
    rcases (mem_withLink (fun link hlink => (ht.links link hlink).1) hstep.1).mp hlink with
      hlink | rfl
    · exact ht.links link hlink
    · exact ⟨hstep.1, hends t.ids ha hid⟩
  · obtain ⟨table, hmem, hlength, hfollow⟩ := @follow_of_new effectiveNodes t step hid
    rw [hfollow]
    split
    · exact ⟨ht, Set.Subset.rfl⟩
    · next hroom =>
        have hsub : ∀ b ∈ t.ids, ∃ ref ∈ table, ref.id = b := by
          rintro b ⟨ref, href, hid⟩
          exact ⟨ref, (hmem ref).mpr (.inl href), hid⟩
        have hnew : ∃ ref ∈ table, ref.id = step.2.id := ⟨step.2, (hmem step.2).mpr (.inr rfl), rfl⟩
        refine ⟨⟨fun ref href => ?_, fun link hlink => ?_, fun b hb => ?_, ?_⟩, hsub⟩
        · rcases (hmem ref).mp href with href | rfl
          · exact ht.refs ref href
          · exact hstep.2.1
        · rcases (mem_withLink (fun link hlink => (ht.links link hlink).1) hstep.1).mp hlink with
            hlink | rfl
          · obtain ⟨hlinked, hfrom, hto⟩ := ht.links link hlink
            exact ⟨hlinked, hsub _ hfrom, hsub _ hto⟩
          · exact ⟨hstep.1, hends _ (hsub a ha) hnew⟩
        · rcases List.mem_append.mp hb with hb | hb
          · exact hsub b (ht.frontier b hb)
          · rw [List.mem_singleton.mp hb]
            exact hnew
        · show (table.rows.length : ℤ) ≤ effectiveNodes
          omega

/-- What a round finds where there is room. -/
theorem follow_of_room (hlinks : ∀ link ∈ t.linksById, Linked s admits link)
    (hstep : Linked s admits step.1) (hroom : ¬ effectiveNodes ≤ t.refsById.rows.length) :
    (∀ b, b ∈ (t.follow effectiveNodes step).ids ↔ b ∈ t.ids ∨ b = step.2.id) ∧
      (∀ link, link ∈ (t.follow effectiveNodes step).linksById ↔
        link ∈ t.linksById ∨ link = step.1) ∧
      ∀ b, b ∈ (t.follow effectiveNodes step).nextFrontier ↔
        b ∈ t.nextFrontier ∨ (b = step.2.id ∧ b ∉ t.ids) := by
  by_cases hid : step.2.id ∈ t.ids
  · rw [follow_of_found hid]
    refine ⟨fun b => ⟨.inl, ?_⟩, fun link => mem_withLink hlinks hstep, fun b => ⟨.inl, ?_⟩⟩
    · rintro (hb | rfl)
      · exact hb
      · exact hid
    · rintro (hb | ⟨rfl, hb⟩)
      · exact hb
      · exact absurd hid hb
  · obtain ⟨table, hmem, -, hfollow⟩ := @follow_of_new effectiveNodes t step hid
    rw [hfollow, if_neg hroom]
    refine ⟨fun b => ?_, fun link => mem_withLink hlinks hstep, fun b => ?_⟩
    · show (∃ ref ∈ table, ref.id = b) ↔ (∃ ref ∈ t.refsById, ref.id = b) ∨ b = step.2.id
      simp only [hmem, or_and_right, exists_or, exists_eq_left, eq_comm]
    · show b ∈ t.nextFrontier ++ [step.2.id] ↔ _
      rw [List.mem_append, List.mem_singleton]
      refine or_congr_right ⟨fun hb => ⟨hb, ?_⟩, And.left⟩
      rwa [hb]

end Round

/-! ## One level -/

section Level

variable {effectiveNodes : ℤ} {root : ℤ} {k depth : ℕ} {t t' : Traversal}
  {steps : Set (EntityLink × EntityRef)}

/-- What a search has found once it knows the references at most `k` links away, and its frontier
is those at `k` links. -/
structure AtLevel (s : GraphStore) (admits : Option ClientId → Bool) (root : ℤ) (k : ℕ)
    (t : Traversal) : Prop where
  ids : ∀ a, a ∈ t.ids ↔ (relations s admits).edist root a ≤ k
  links : ∀ link, link ∈ t.linksById ↔
    Linked s admits link ∧ ∃ a, (relations s admits).edist root a < k ∧ Incident link a
  frontier : ∀ a, a ∈ t.nextFrontier ↔ (relations s admits).edist root a = k

/-- What it has found when it has made some of the steps from level `k`. -/
structure Partway (s : GraphStore) (admits : Option ClientId → Bool) (root : ℤ) (k : ℕ)
    (steps : Set (EntityLink × EntityRef)) (t : Traversal) : Prop where
  beside : ∀ step ∈ steps, ∃ a, (relations s admits).edist root a = k ∧ Beside s admits a step
  ids : ∀ a, a ∈ t.ids ↔ (relations s admits).edist root a ≤ k ∨ ∃ step ∈ steps, step.2.id = a
  links : ∀ link, link ∈ t.linksById ↔ (Linked s admits link ∧
    ∃ a, (relations s admits).edist root a < k ∧ Incident link a) ∨ ∃ step ∈ steps, step.1 = link
  frontier : ∀ a, a ∈ t.nextFrontier ↔ a ∈ t.ids ∧ ¬ (relations s admits).edist root a ≤ k

/-- A search that finds only what is in reach has room for one more reference. -/
def Roomy (s : GraphStore) (admits : Option ClientId → Bool) (root : ℤ) (depth : ℕ)
    (effectiveNodes : ℤ) : Prop :=
  ∀ t : Traversal, (∀ ref ∈ t.refsById, ref ∈ near s admits root depth) →
    (t.refsById.rows.length : ℤ) < effectiveNodes

theorem AtLevel.start (h : AtLevel s admits root k t) :
    Partway s admits root k ∅ { t with nextFrontier := [] } where
  beside := by simp
  ids a := by simpa [Traversal.ids] using h.ids a
  links link := by simpa using h.links link
  frontier a := by simpa [Traversal.ids] using fun ref href hid => (h.ids a).mp ⟨ref, href, hid⟩

theorem Beside.edist_le {step : EntityLink × EntityRef} (h : Beside s admits a step)
    (ha : (relations s admits).edist root a = k) :
    (relations s admits).edist root step.2.id ≤ (k + 1 : ℕ) := by
  by_cases hsame : a = step.2.id
  · rw [← hsame, ha]
    exact_mod_cast Nat.le_succ k
  · exact edist_le_succ_of_adj ha.le (relations_adj_iff.mpr ⟨hsame, step, h, rfl⟩)

/-- When every step from the level was made, the next level is reached. -/
theorem Partway.finish (h : Partway s admits root k steps t)
    (hall : ∀ a, (relations s admits).edist root a = k → ∀ step, Beside s admits a step →
      step ∈ steps) :
    AtLevel s admits root (k + 1) t := by
  have hids : ∀ a, a ∈ t.ids ↔ (relations s admits).edist root a ≤ (k + 1 : ℕ) := by
    intro a
    rw [h.ids, edist_le_succ_iff]
    constructor
    · rintro (ha | ⟨step, hstep, rfl⟩)
      · exact .inl ha
      · obtain ⟨b, hb, hbeside⟩ := h.beside step hstep
        exact edist_le_succ_iff.mp (hbeside.edist_le hb)
    · refine Or.imp_right ?_
      rintro ⟨b, hb, hadj⟩
      obtain ⟨-, step, hstep, hid⟩ := relations_adj_iff.mp hadj
      exact ⟨step, hall b hb step hstep, hid⟩
  have hlt : ∀ a, (relations s admits).edist root a < (k + 1 : ℕ) ↔
      (relations s admits).edist root a < k ∨ (relations s admits).edist root a = k := by
    intro a
    rw [← le_iff_lt_or_eq, Nat.cast_succ, ENat.lt_natCast_add_one_iff]
  refine ⟨hids, fun link => ?_, fun a => ?_⟩
  · rw [h.links]
    constructor
    · rintro (⟨hlink, a, ha, hincident⟩ | ⟨step, hstep, rfl⟩)
      · exact ⟨hlink, a, (hlt a).mpr (.inl ha), hincident⟩
      · obtain ⟨a, ha, hbeside⟩ := h.beside step hstep
        exact ⟨hbeside.1, a, (hlt a).mpr (.inr ha), hbeside.incident⟩
    · rintro ⟨hlink, a, ha, hincident⟩
      rcases (hlt a).mp ha with ha | ha
      · exact .inl ⟨hlink, a, ha, hincident⟩
      · obtain ⟨ref, href⟩ := hlink.exists_beside hincident
        exact .inr ⟨(link, ref), hall a ha _ href, rfl⟩
  · rw [h.frontier, hids, not_le, le_iff_lt_or_eq, hlt]
    constructor
    · rintro ⟨ha | ha, hk⟩
      · exact absurd hk (not_lt.mpr (le_iff_lt_or_eq.mpr ha))
      · exact ha
    · intro ha
      refine ⟨.inr ha, ?_⟩
      rw [ha]
      exact_mod_cast Nat.lt_succ_self k

theorem Partway.roomy (hroomy : Roomy s admits root depth effectiveNodes) (hk : k < depth)
    (ht : t.Inside s admits effectiveNodes) (h : Partway s admits root k steps t) :
    ¬ effectiveNodes ≤ t.refsById.rows.length := by
  refine not_le.mpr (hroomy t fun ref href => ⟨ht.refs ref href, ?_⟩)
  have hnext : (relations s admits).edist root ref.id ≤ (k + 1 : ℕ) := by
    rcases (h.ids ref.id).mp ⟨ref, href, rfl⟩ with hid | ⟨step, hstep, hid⟩
    · exact hid.trans (by exact_mod_cast Nat.le_succ k)
    · obtain ⟨a, ha, hbeside⟩ := h.beside step hstep
      rw [← hid]
      exact hbeside.edist_le ha
  exact hnext.trans (by exact_mod_cast hk)

/-- The step lemma of the search. -/
theorem Partway.follow (hroomy : Roomy s admits root depth effectiveNodes) (hk : k < depth)
    (ht : t.Inside s admits effectiveNodes) (h : Partway s admits root k steps t)
    {step : EntityLink × EntityRef} (ha : (relations s admits).edist root a = k)
    (hstep : Beside s admits a step) :
    Partway s admits root k (insert step steps) (t.follow effectiveNodes step) := by
  obtain ⟨hids, hlinks, hfrontier⟩ := follow_of_room (fun link hlink => (ht.links link hlink).1)
    hstep.1 (h.roomy hroomy hk ht)
  refine ⟨?_, fun b => ?_, fun link => ?_, fun b => ?_⟩
  · intro other hother
    rcases Set.mem_insert_iff.mp hother with rfl | hother
    · exact ⟨a, ha, hstep⟩
    · exact h.beside other hother
  · rw [hids, h.ids, Set.exists_mem_insert, or_assoc, or_comm (b := b = _), eq_comm]
  · rw [hlinks, h.links, Set.exists_mem_insert, or_assoc, or_comm (b := link = _), eq_comm]
  · have hknown : (relations s admits).edist root b ≤ k → b ∈ t.ids := fun hb =>
      (h.ids b).mpr (.inl hb)
    rw [hfrontier, h.frontier, hids]
    tauto

/-- The rounds over some neighbours of a reference of the level. -/
theorem Partway.foldl_follow (hroomy : Roomy s admits root depth effectiveNodes) (hk : k < depth)
    (ha : (relations s admits).edist root a = k)
    {pairs : List (EntityLink × EntityRef)} (hpairs : ∀ step ∈ pairs, Beside s admits a step)
    (hat : a ∈ t.ids) (ht : t.Inside s admits effectiveNodes)
    (h : Partway s admits root k steps t) :
    Partway s admits root k (steps ∪ {step | step ∈ pairs})
      (pairs.foldl (Traversal.follow effectiveNodes) t) := by
  induction pairs generalizing t steps with
  | nil => simpa using h
  | cons step pairs ih =>
      have hstep := hpairs step (by simp)
      obtain ⟨ht', hsub⟩ := ht.follow hat hstep
      have hrest := ih (fun other hother => hpairs other (by simp [hother])) (hsub hat) ht'
        (h.follow hroomy hk ht ha hstep)
      have hset : steps ∪ {other | other ∈ step :: pairs} =
          insert step steps ∪ {other | other ∈ pairs} := by
        ext other
        simp only [Set.mem_union, Set.mem_insert_iff, Set.mem_ofPred_eq, List.mem_cons]
        tauto
      rw [hset]
      exact hrest

theorem Traversal.Inside.foldl_follow {pairs : List (EntityLink × EntityRef)}
    (hpairs : ∀ step ∈ pairs, Beside s admits a step) (hat : a ∈ t.ids)
    (ht : t.Inside s admits effectiveNodes) :
    (pairs.foldl (Traversal.follow effectiveNodes) t).Inside s admits effectiveNodes ∧
      t.ids ⊆ (pairs.foldl (Traversal.follow effectiveNodes) t).ids := by
  induction pairs generalizing t with
  | nil => exact ⟨ht, Set.Subset.rfl⟩
  | cons step pairs ih =>
      obtain ⟨ht', hsub⟩ := ht.follow hat (hpairs step (by simp))
      obtain ⟨hrest, hsub'⟩ := ih (fun other hother => hpairs other (by simp [hother])) (hsub hat)
        ht'
      exact ⟨hrest, hsub.trans hsub'⟩

/-- The rounds over the references of a frontier keep to the scope and the bound; where there is
room, they make the steps from each of them. -/
theorem exists_expand (hscope : clientScopePredicate scope = .ok admits) {frontier : List ℤ}
    (hfrontier : ∀ a ∈ frontier, a ∈ t.ids) (ht : t.Inside s admits effectiveNodes) :
    ∃ t', frontier.foldlM (s.expand scope effectiveNodes) t = .ok t' ∧
      t'.Inside s admits effectiveNodes ∧ t.ids ⊆ t'.ids ∧
        ∀ depth k steps, Roomy s admits root depth effectiveNodes → k < depth →
          (∀ a ∈ frontier, (relations s admits).edist root a = k) →
          Partway s admits root k steps t →
            Partway s admits root k
              (steps ∪ {step | ∃ a ∈ frontier, Beside s admits a step}) t' := by
  induction frontier generalizing t with
  | nil => exact ⟨t, rfl, ht, Set.Subset.rfl, fun _ _ _ _ _ _ h => by simpa using h⟩
  | cons a frontier ih =>
      obtain ⟨pairs, hneighbors, hmem⟩ := exists_neighbors (s := s) hscope a
      have hat := hfrontier a (by simp)
      obtain ⟨ht', hsub⟩ := ht.foldl_follow (fun step hstep => (hmem step).mp hstep) hat
      obtain ⟨t', hrun, ht'', hsub', hpartway⟩ := ih
        (fun b hb => hsub (hfrontier b (by simp [hb]))) ht'
      refine ⟨t', ?_, ht'', hsub.trans hsub', ?_⟩
      · rw [List.foldlM_cons, GraphStore.expand, hneighbors, ok_bind]
        exact hrun
      · intro depth k steps hroomy hk hlevel h
        have hfirst := h.foldl_follow hroomy hk (hlevel a (by simp))
          (fun step hstep => (hmem step).mp hstep) hat ht
        have hrest := hpartway depth k _ hroomy hk (fun b hb => hlevel b (by simp [hb])) hfirst
        convert hrest using 1
        ext step
        simp only [Set.mem_union, Set.mem_ofPred_eq, List.mem_cons, exists_eq_or_imp, hmem,
          or_assoc]

/-- The run lemma of the search. -/
theorem exists_levels (hscope : clientScopePredicate scope = .ok admits) (rounds : ℕ)
    (ht : t.Inside s admits effectiveNodes) :
    ∃ t', s.levels scope effectiveNodes rounds t = .ok t' ∧ t'.Inside s admits effectiveNodes ∧
      ∀ k, Roomy s admits root (k + rounds) effectiveNodes → AtLevel s admits root k t →
        (∀ a, a ∈ t'.ids ↔ (relations s admits).edist root a ≤ (k + rounds : ℕ)) ∧
          ∀ link, link ∈ t'.linksById ↔ Linked s admits link ∧
            ∃ a, (relations s admits).edist root a < (k + rounds : ℕ) ∧ Incident link a := by
  induction rounds generalizing t with
  | zero => exact ⟨t, rfl, ht, fun k _ h => ⟨h.ids, h.links⟩⟩
  | succ rounds ih =>
      rw [GraphStore.levels]
      split
      · next hstop =>
          refine ⟨t, rfl, ht, fun k hroomy h => ?_⟩
          have hroom := hroomy t fun ref href => ⟨ht.refs ref href,
            ((h.ids ref.id).mp ⟨ref, href, rfl⟩).trans (by exact_mod_cast Nat.le_add_right k _)⟩
          -- the bound was not reached, so that nothing is left at this level
          have hnone : t.nextFrontier = [] := by
            simpa [not_le.mpr hroom] using hstop
          have hempty : ∀ a, (relations s admits).edist root a ≠ k := by
            intro a ha
            have hmem := (h.frontier a).mpr ha
            rw [hnone] at hmem
            exact List.not_mem_nil hmem
          have hle : (k : ℕ∞) ≤ (k + (rounds + 1) : ℕ) := by exact_mod_cast Nat.le_add_right k _
          refine ⟨fun a => ?_, fun link => ?_⟩
          · rw [h.ids]
            exact ⟨fun ha => ha.trans hle, fun ha => (edist_lt_of_le hempty ha).le⟩
          · rw [h.links]
            refine and_congr_right fun _ => exists_congr fun a => and_congr_left fun _ => ?_
            exact ⟨fun ha => ha.trans_le hle, fun ha => edist_lt_of_le hempty ha.le⟩
      · have hcleared : ({ t with nextFrontier := [] } : Traversal).Inside s admits
            effectiveNodes := ⟨ht.refs, ht.links, by simp, ht.size⟩
        obtain ⟨next, hnext, hinside, -, hpartway⟩ :=
          @exists_expand s scope admits effectiveNodes root { t with nextFrontier := [] } hscope _
            ht.frontier hcleared
        obtain ⟨t', hrun, hinside', hlevels⟩ := ih hinside
        refine ⟨t', by rw [hnext, ok_bind, hrun], hinside', fun k hroomy h => ?_⟩
        have hshift : k + 1 + rounds = k + (rounds + 1) := by omega
        have hall := hpartway (k + (rounds + 1)) k ∅ hroomy (by omega)
          (fun a ha => (h.frontier a).mp ha) h.start
        have hnextLevel := hall.finish fun a ha step hstep =>
          .inr ⟨a, (h.frontier a).mpr ha, hstep⟩
        have hrest := hlevels (k + 1) (by rwa [hshift]) hnextLevel
        rwa [hshift] at hrest

end Level

/-! ## The view -/

theorem roomy_of_encard {effectiveNodes : ℤ} {root : ℤ} {depth : ℕ}
    (h : (near s admits root depth).encard < effectiveNodes.toNat) :
    Roomy s admits root depth effectiveNodes := by
  intro t ht
  have hnodup : t.refsById.rows.Nodup := t.refsById.nodup.of_map
  have hcard : (t.refsById.rows.length : ℕ∞) ≤ (near s admits root depth).encard := by
    rw [← List.toFinset_card_of_nodup hnodup, ← Set.encard_coe_eq_coe_finsetCard]
    exact Set.encard_le_encard fun ref href => ht ref (List.mem_toFinset.mp href)
  have hlt : t.refsById.rows.length < effectiveNodes.toNat := by exact_mod_cast hcard.trans_lt h
  omega

/-- What is promised of a view from `root`. -/
structure View (s : GraphStore) (admits : Option ClientId → Bool) (root : ℤ) (depth : ℕ)
    (maxNodes : ℤ) (view : SubGraph) : Prop where
  size : view.refs.length ≤ maxNodes
  inScope : ∀ ref ∈ view.refs, Scoped s admits ref
  nodup : (view.refs.map EntityRef.id).Nodup
  nodup_links : (view.links.map EntityLink.id).Nodup
  closed : ∀ link ∈ view.links, Linked s admits link ∧
    link.fromRefId ∈ view.refs.map EntityRef.id ∧ link.toRefId ∈ view.refs.map EntityRef.id
  exact : (near s admits root depth).encard < maxNodes.toNat →
    (∀ ref, ref ∈ view.refs ↔ ref ∈ near s admits root depth) ∧
      ∀ link, link ∈ view.links ↔ Linked s admits link ∧
        ∃ a, (relations s admits).edist root a < depth ∧ Incident link a

/-- A call that is not refused views the references in reach, up to the bounds. -/
theorem exists_view (s : GraphStore) {scope : Option ScopeArgument}
    {admits : Option ClientId → Bool} (hscope : clientScopePredicate scope = .ok admits) (root : ℤ)
    {maxDepth maxNodes : ℤ} (hdepth : 0 ≤ maxDepth) (hnodes : 1 ≤ maxNodes) :
    ∃ view, s.subgraph scope root maxDepth maxNodes = .ok view ∧
      View s admits root (min maxDepth hardMaxDepth).toNat (min maxNodes hardMaxNodes) view := by
  have hpos : 1 ≤ min maxNodes hardMaxNodes := le_min hnodes (by decide)
  rw [GraphStore.subgraph, if_neg (by omega), if_neg (by omega)]
  simp only [getEntityRef_eq hscope, ok_bind]
  cases hroot : s.externalEntityRefs.rows.find? fun ref =>
      ref.id = root && admits (some ref.clientId) with
  | none =>
      have hout : ∀ ref, Scoped s admits ref → ref.id ≠ root := fun ref href hid => by
        rw [find?_scoped_iff.mpr ⟨href, hid⟩] at hroot
        cases hroot
      have hnear : ∀ {a : ℤ} {depth : ℕ}, (∃ ref, Scoped s admits ref ∧ ref.id = a) →
          ¬ (relations s admits).edist root a ≤ depth := by
        rintro a depth ⟨ref, href, hid⟩ ha
        by_cases hsame : a = root
        · exact hout ref href (hid.trans hsame)
        · obtain ⟨⟨other, hother, hotherid⟩, -⟩ := exists_scoped_of_edist_le hsame ha
          exact hout other hother hotherid
      refine ⟨⟨[], []⟩, rfl, ⟨zero_le_one.trans hpos, by simp, by simp, by simp, by simp, ?_⟩⟩
      refine fun _ => ⟨fun ref => ?_, fun link => ?_⟩
      · simpa using fun hmem : ref ∈ near s admits root _ => hnear ⟨ref, hmem.1, rfl⟩ hmem.2
      · refine ⟨fun hlink => absurd hlink List.not_mem_nil, ?_⟩
        rintro ⟨hlink, a, ha, hincident⟩
        exact absurd ha.le (hnear (hlink.exists_scoped hincident))
  | some ref =>
      obtain ⟨href, hid⟩ := find?_scoped_iff.mp hroot
      have hinside : Traversal.Inside s admits (min maxNodes hardMaxNodes)
          ⟨.singleton ref, .empty, [ref.id]⟩ := by
        refine ⟨?_, by simp, ?_, by simpa [Table.singleton] using hpos⟩
        · intro other hother
          rw [Table.mem_singleton.mp hother]
          exact href
        · simp [Traversal.ids]
      have hlevel : AtLevel s admits root 0 ⟨.singleton ref, .empty, [ref.id]⟩ := by
        refine ⟨fun a => ?_, ?_, fun a => ?_⟩
        · simp [Traversal.ids, hid, @eq_comm _ a]
        · simp
        · simp [hid, @eq_comm _ a]
      obtain ⟨found, hrun, hfound, hexact⟩ := @exists_levels s scope admits _ root _ hscope
        (min maxDepth hardMaxDepth).toNat hinside
      have hids : ∀ a, a ∈ found.refsById.rows.map EntityRef.id ↔ a ∈ found.ids :=
        fun a => List.mem_map
      refine ⟨_, by dsimp only; rw [hrun]; rfl, ⟨hfound.size, hfound.refs, found.refsById.nodup,
        ?_, ?_, ?_⟩⟩
      · exact ((List.perm_insertionSort _ _).map _).nodup_iff.mpr found.linksById.nodup
      · intro link hlink
        obtain ⟨hlinked, hfrom, hto⟩ := hfound.links link ((List.mem_insertionSort _).mp hlink)
        exact ⟨hlinked, (hids _).mpr hfrom, (hids _).mpr hto⟩
      · intro hfew
        obtain ⟨hreached, hlinks⟩ := hexact 0 (by simpa using roomy_of_encard hfew) hlevel
        rw [Nat.zero_add] at hreached hlinks
        refine ⟨fun other => ⟨fun hother => ?_, fun hother => ?_⟩, fun link => ?_⟩
        · exact ⟨hfound.refs other hother, (hreached other.id).mp ⟨other, hother, rfl⟩⟩
        · obtain ⟨same, hsame, hsameid⟩ := (hreached other.id).mpr hother.2
          rwa [← (hfound.refs same hsame).eq_of_id_eq hother.1 hsameid]
        · rw [List.mem_insertionSort]
          exact hlinks link

/-- Two devices and the alert of one of them, of which the client owns all but the last. -/
def exampleGraph : GraphStore where
  externalEntityRefs :=
    ⟨[⟨1, acme, "device", "rmm", "d1", "desk"⟩, ⟨2, acme, "alert", "rmm", "a1", "disk"⟩,
      ⟨3, quarantineClientId, "device", "rmm", "d2", "lab"⟩], by decide⟩
  entityLinks :=
    ⟨[⟨1, acme, 2, 1, "alerted_on", "rmm_inventory"⟩,
      ⟨2, acme, 1, 1, "related_to", "rmm_inventory"⟩,
      ⟨3, acme, 2, 3, "alerted_on", "rmm_inventory"⟩], by decide⟩

theorem exists_view_exampleGraph :
    ∃ view, exampleGraph.subgraph (some (.boundClients ["acme"])) 1 2 200 = .ok view ∧
      View exampleGraph (fun c => c.any fun c => ["acme"].contains c.val) 1
        (min 2 hardMaxDepth).toNat (min 200 hardMaxNodes) view :=
  exists_view exampleGraph rfl 1 (by decide) (by decide)

example : (exampleGraph.subgraph (some (.boundClients ["acme"])) 1 2 200).toOption.map
    (fun view => (view.refs.map EntityRef.id, view.links.map EntityLink.id)) =
      some ([1, 2], [1, 2]) := by
  decide

end WaitLocalAgent.OperationalGraph
