import WaitLocalAgent.Foundation.Counted
import WaitLocalAgent.Model.AgentMemory
import WaitLocalAgent.Verification.AgentPlatform.Storage

/-! # Memories are chains of revisions

The runs in which the versions of a memory are counted, each but the first supersedes the one
before it, and what was deleted or superseded stays as it is. -/

namespace WaitLocalAgent.AgentMemory

open Foundation AgentPlatform

variable {s t u : Memories} {slot : Slot} {r row : Memory}

/-! ### Chains -/

namespace Memories

def versions (s : Memories) (slot : Slot) : List ℕ := (s.ofSlot slot).map Memory.version

theorem mem_ofSlot : r ∈ s.ofSlot slot ↔ r ∈ s.rows ∧ r.slot = slot := by
  simp [ofSlot, Table.mem_def]

/-- The rows of every slot are counted, one of them at most is active, and each but the first
supersedes the one before it. -/
structure Chained (s : Memories) : Prop where
  counted : ∀ slot, Counted 1 (s.versions slot)
  active : ∀ r ∈ s.rows, ∀ q ∈ s.rows, r.status = .active → q.status = .active →
    r.slot = q.slot → r = q
  supersedes : ∀ r ∈ s.rows, 1 < r.version → ∃ q ∈ s.rows, q.slot = r.slot ∧
    q.version + 1 = r.version ∧ r.supersedesId = some q.id

def Settles (s t : Memories) : Prop := ∀ r ∈ s.rows, r.status ≠ .active → r ∈ t.rows

theorem Settles.refl (s : Memories) : Settles s s := fun _ hr _ => hr

theorem Settles.trans (h : Settles s t) (h' : Settles t u) : Settles s u :=
  fun r hr hactive => h' r (h r hr hactive) hactive

theorem chained_empty : Chained .empty where
  counted _ := Counted.nil
  active := Memories.empty.unique
  supersedes _ hr := absurd hr (Table.not_mem_empty _)

/-! ### Updates -/

section Update

variable {p : Memory → Bool} {f : Memory → Memory} {hid : ∀ r, (f r).id = r.id}
  {hslot : ∀ r, (f r).slot = r.slot} {hactive : ∀ r, (f r).status = .active → r.status = .active}

theorem mem_update {q : Memory} : q ∈ (s.update p f hid hslot hactive).rows ↔
    ∃ r ∈ s.rows, (if p r then f r else r) = q := by
  rw [Memories.update, Table.mem_update]

/-- What an update keeps of a row. -/
structure SameVersion (r q : Memory) : Prop where
  id : q.id = r.id
  slot : q.slot = r.slot
  version : q.version = r.version
  supersedes : q.supersedesId = r.supersedesId

theorem sameVersion_ite (hf : ∀ r, SameVersion r (f r)) (r : Memory) :
    SameVersion r (if p r then f r else r) := by
  split
  · exact hf r
  · exact ⟨rfl, rfl, rfl, rfl⟩

theorem versions_update (hf : ∀ r, SameVersion r (f r)) (slot : Slot) :
    (s.update p f hid hslot hactive).versions slot = s.versions slot := by
  have hkeep := sameVersion_ite (p := p) hf
  have hrows : (s.update p f hid hslot hactive).rows.rows =
      s.rows.rows.map fun r => if p r then f r else r := rfl
  rw [versions, versions, ofSlot, ofSlot, hrows, List.filter_map, List.map_map]
  have hfilter : ((fun r : Memory => decide (r.slot = slot)) ∘ fun r => if p r then f r else r) =
      fun r => decide (r.slot = slot) := by
    funext r
    simp [(hkeep r).slot]
  rw [hfilter]
  exact List.map_congr_left fun r _ => (hkeep r).version

theorem Chained.update (h : s.Chained) (hf : ∀ r, SameVersion r (f r)) :
    (s.update p f hid hslot hactive).Chained where
  counted slot := by
    rw [versions_update hf]
    exact h.counted slot
  active := (s.update p f hid hslot hactive).unique
  supersedes q hq hversion := by
    obtain ⟨r, hr, rfl⟩ := mem_update.mp hq
    have hkeep := sameVersion_ite (p := p) hf r
    rw [hkeep.version] at hversion
    obtain ⟨q, hq, hslot, hnext, hsupersedes⟩ := h.supersedes r hr hversion
    have hkeep' := sameVersion_ite (p := p) hf q
    exact ⟨_, mem_update.mpr ⟨q, hq, rfl⟩, by rw [hkeep'.slot, hkeep.slot, hslot],
      by rw [hkeep'.version, hkeep.version, hnext],
      by rw [hkeep.supersedes, hkeep'.id, hsupersedes]⟩

theorem settles_update (hp : ∀ r, p r = true → r.status = .active) :
    Settles s (s.update p f hid hslot hactive) := by
  intro r hr hsettled
  refine mem_update.mpr ⟨r, hr, ?_⟩
  rw [if_neg fun h => hsettled (hp r h)]

end Update

/-! ### The newest row -/

theorem newest_eq_some {best : Option Memory} {q b : Memory} (h : newest best q = some b) :
    (b = q ∨ best = some b) ∧ q.version ≤ b.version ∧
      ∀ b', best = some b' → b'.version ≤ b.version := by
  cases best with
  | none =>
      cases h
      simp
  | some b' =>
      rw [newest] at h
      split at h
      · cases h
        refine ⟨.inl rfl, le_rfl, fun b hb => ?_⟩
        cases hb
        omega
      · cases h
        refine ⟨.inr rfl, by omega, fun b hb => ?_⟩
        cases hb
        exact le_rfl

theorem foldl_newest {l : List Memory} {best : Option Memory} {r : Memory}
    (h : l.foldl newest best = some r) : (r ∈ l ∨ best = some r) ∧
      (∀ q ∈ l, q.version ≤ r.version) ∧ ∀ b, best = some b → b.version ≤ r.version := by
  induction l generalizing best with
  | nil =>
      rw [List.foldl_nil] at h
      subst h
      simp
  | cons q l ih =>
      obtain ⟨hmem, hle, hbest⟩ := ih h
      cases hnewest : newest best q with
      | none =>
          cases best with
          | none => cases hnewest
          | some b => simp [newest] at hnewest; split at hnewest <;> cases hnewest
      | some b =>
          obtain ⟨hfrom, hq, hb⟩ := newest_eq_some hnewest
          have hlast := hbest b hnewest
          refine ⟨?_, ?_, fun b' hb' => (hb b' hb').trans hlast⟩
          · rcases hmem with hmem | hmem
            · exact .inl (List.mem_cons_of_mem q hmem)
            · cases hnewest.symm.trans hmem
              exact hfrom.imp (fun hrq => by simp [hrq]) id
          · simpa [hq.trans hlast] using hle

theorem foldl_newest_ne_none {l : List Memory} {best : Option Memory}
    (h : best ≠ none ∨ l ≠ []) : l.foldl newest best ≠ none := by
  induction l generalizing best with
  | nil => simpa using h
  | cons q l ih =>
      refine ih (.inl ?_)
      cases best with
      | none => exact nofun
      | some b => rw [newest]; split <;> exact nofun

theorem latest?_eq_some (h : s.latest? slot = some r) :
    r ∈ s.ofSlot slot ∧ ∀ q ∈ s.ofSlot slot, q.version ≤ r.version := by
  obtain ⟨hmem, hle, -⟩ := foldl_newest h
  exact ⟨hmem.resolve_right nofun, hle⟩

theorem latest?_eq_none (h : s.latest? slot = none) : s.ofSlot slot = [] := by
  by_contra hne
  exact foldl_newest_ne_none (.inr hne) h

/-! ### Writes -/

theorem insert?_eq_some {s' : Memories} (h : s.insert? row = some s') :
    s'.rows.rows = s.rows.rows ++ [row] := by
  rw [insert?] at h
  split at h
  · cases h
    rfl
  · cases h

theorem versions_insert? {s' : Memories} (h : s.insert? row = some s') (slot : Slot) :
    s'.versions slot = s.versions slot ++ if row.slot = slot then [row.version] else [] := by
  rw [versions, versions, ofSlot, ofSlot, insert?_eq_some h, List.filter_append, List.map_append]
  by_cases hslot : row.slot = slot <;> simp [hslot]

theorem eq_of_version_eq (h : s.Chained) {q : Memory} (hr : r ∈ s.ofSlot slot)
    (hq : q ∈ s.ofSlot slot) (hversion : r.version = q.version) : r = q :=
  List.inj_on_of_nodup_map (h.counted slot).nodup hr hq hversion

/-- The row that was found newest, when it was read. -/
def Found (s : Memories) (slot : Slot) (found : Option (String × ℕ)) : Prop :=
  ∀ l, found = some l → ∃ q ∈ s.ofSlot slot, q.id = l.1 ∧ q.version = l.2

/-- The version after the one that was found is the next one exactly when what was found is the
newest row still. -/
theorem next_iff (h : s.Chained) {found : Option (String × ℕ)} (hfound : s.Found slot found) :
    (found.map fun l => l.2 + 1).getD 1 = 1 + (s.versions slot).length ↔
      (s.latest? slot).map Memory.id = found.map Prod.fst := by
  cases found with
  | none =>
      cases hlatest : s.latest? slot with
      | none => simp [versions, latest?_eq_none hlatest]
      | some r =>
          have hlength := List.length_pos_of_mem (latest?_eq_some hlatest).1
          simp [versions]
          rintro hnil
          rw [hnil] at hlength
          cases hlength
  | some l =>
      obtain ⟨q, hq, hid, hversion⟩ := hfound l rfl
      cases hlatest : s.latest? slot with
      | none =>
          rw [latest?_eq_none hlatest] at hq
          cases hq
      | some r =>
          obtain ⟨hr, hle⟩ := latest?_eq_some hlatest
          have hlast := (h.counted slot).eq_of_forall_le (List.mem_map_of_mem hr)
            (by simpa [versions] using hle)
          simp only [Option.map_some, Option.getD_some, Option.some.injEq]
          constructor
          · intro hnext
            rw [← hid, eq_of_version_eq h hr hq (by omega)]
          · intro hsame
            have hrq : r = q := Table.eq_of_key_eq (mem_ofSlot.mp hr).1 (mem_ofSlot.mp hq).1
              (hsame.trans hid.symm)
            rw [← hversion, ← hrq]
            omega

theorem chained_insert?_iff {s' : Memories} (h : s.Chained) (hinsert : s.insert? row = some s')
    (hsupersedes : 1 < row.version → ∃ q ∈ s.rows, q.slot = row.slot ∧
      q.version + 1 = row.version ∧ row.supersedesId = some q.id) :
    s'.Chained ↔ row.version = 1 + (s.versions row.slot).length := by
  have hmem : ∀ r, r ∈ s'.rows ↔ r ∈ s.rows ∨ r = row := fun r => by
    rw [Table.mem_def, insert?_eq_some hinsert, List.mem_append, List.mem_singleton]
    rfl
  constructor
  · intro h'
    have hcounted := h'.counted row.slot
    rwa [versions_insert? hinsert, if_pos rfl, (h.counted row.slot).concat_iff] at hcounted
  · intro hversion
    refine ⟨fun slot => ?_, s'.unique, fun r hr hmore => ?_⟩
    · rw [versions_insert? hinsert]
      by_cases hslot : row.slot = slot
      · subst hslot
        rw [if_pos rfl, hversion]
        exact (h.counted row.slot).concat
      · rw [if_neg hslot, List.append_nil]
        exact h.counted slot
    · have hback : ∃ q ∈ s.rows, q.slot = r.slot ∧ q.version + 1 = r.version ∧
          r.supersedesId = some q.id := by
        rcases (hmem r).mp hr with hold | rfl
        · exact h.supersedes r hold hmore
        · exact hsupersedes hmore
      obtain ⟨q, hq, hrest⟩ := hback
      exact ⟨q, (hmem q).mpr (.inl hq), hrest⟩

theorem sameVersion_supersede (now : String) (r : Memory) :
    SameVersion r { r with status := .superseded, updatedAt := now } := ⟨rfl, rfl, rfl, rfl⟩

theorem settles_supersede (superseded : Option String) (clientId now : String) :
    Settles s (s.supersede superseded clientId now) := by
  refine settles_update fun r hp => ?_
  simp only [Bool.and_eq_true, beq_iff_eq] at hp
  exact hp.2

/-- The database refuses a put: its id is taken, or its slot has an active row that it does not
supersede. -/
def Refused (s : Memories) (superseded : Option String) (row : Memory) : Prop :=
  ∃ r ∈ s.rows, r.id = row.id ∨ r.status = .active ∧ r.slot = row.slot ∧ superseded ≠ some r.id

theorem put?_eq_none_iff {superseded : Option String} :
    s.put? superseded row = none ↔ s.Refused superseded row := by
  have hmem : ∀ q, q ∈ (s.supersede superseded row.slot.clientId row.updatedAt).rows ↔ _ :=
    fun q => mem_update
  have hkeep := fun r => sameVersion_ite (p := fun r : Memory => superseded == some r.id &&
    r.slot.clientId == row.slot.clientId && r.status == .active)
    (sameVersion_supersede row.updatedAt) r
  rw [put?, insert?]
  split
  · next hfree =>
      refine iff_of_false (by simp) ?_
      rintro ⟨r, hr, hid | ⟨hactive, hslot, hother⟩⟩
      · exact hfree.1 _ ((hmem _).mpr ⟨r, hr, rfl⟩) ((hkeep r).id.trans hid)
      · exact hfree.2 r ((hmem r).mpr ⟨r, hr, if_neg (by simp [hother])⟩) hactive hslot
  · next htaken =>
      refine iff_of_true rfl ?_
      by_contra hfree
      simp only [Refused, not_exists, not_and, not_or, not_not] at hfree
      refine htaken ⟨fun q hq => ?_, fun q hq hactive hslot => ?_⟩
      · obtain ⟨r, hr, rfl⟩ := (hmem q).mp hq
        rw [(hkeep r).id]
        exact (hfree r hr).1
      · obtain ⟨r, hr, rfl⟩ := (hmem q).mp hq
        rw [(hkeep r).slot] at hslot
        split at hactive
        · cases hactive
        · next hp =>
            have hsuperseded := (hfree r hr).2 hactive hslot
            simp [hsuperseded, hslot, hactive] at hp

/-- A put keeps the chains exactly when what it supersedes is the newest row. -/
theorem put_iff {s' : Memories} {superseded : Option String} {found : Option (String × ℕ)}
    (h : s.Chained) (hput : s.put? superseded row = some s') (hfound : s.Found row.slot found)
    (hversion : row.version = (found.map fun l => l.2 + 1).getD 1)
    (hsupersedes : row.supersedesId = found.map Prod.fst) :
    s'.Chained ∧ Settles s s' ↔ (s.latest? row.slot).map Memory.id = row.supersedesId := by
  have hold : (s.supersede superseded row.slot.clientId row.updatedAt).Chained :=
    h.update (sameVersion_supersede _)
  have hlength : (s.supersede superseded row.slot.clientId row.updatedAt).versions row.slot =
      s.versions row.slot := versions_update (sameVersion_supersede _) _
  have hsettles : Settles s s' := by
    intro r hr hsettled
    rw [Table.mem_def, insert?_eq_some hput]
    exact List.mem_append_left _ (settles_supersede _ _ _ r hr hsettled)
  rw [and_iff_left hsettles, chained_insert?_iff hold hput, hlength, hversion, hsupersedes,
    next_iff h hfound]
  intro hmore
  cases found with
  | none =>
      rw [hversion] at hmore
      exact absurd hmore (by decide)
  | some l =>
      obtain ⟨q, hq, hid, hq'⟩ := hfound l rfl
      obtain ⟨hq, hslot⟩ := mem_ofSlot.mp hq
      have hkeep := sameVersion_ite (p := fun r : Memory => superseded == some r.id &&
        r.slot.clientId == row.slot.clientId && r.status == .active)
        (sameVersion_supersede row.updatedAt) q
      refine ⟨_, mem_update.mpr ⟨q, hq, rfl⟩, ?_⟩
      rw [hkeep.slot, hkeep.version, hkeep.id, hslot, hversion, hsupersedes, hid, hq']
      exact ⟨rfl, rfl, rfl⟩

theorem pin_iff {clientId memoryId now : String} {pinned : Bool} (h : s.Chained) :
    (s.pin clientId memoryId pinned now).Chained ∧ Settles s (s.pin clientId memoryId pinned now) ↔
      ∀ r ∈ s.rows, r.id = memoryId → r.slot.clientId = clientId →
        r.status = .active ∨ r.pinned = pinned ∧ r.updatedAt = now := by
  have hchained : (s.pin clientId memoryId pinned now).Chained :=
    h.update fun r => ⟨rfl, rfl, rfl, rfl⟩
  rw [and_iff_right hchained]
  constructor
  · intro hsettles r hr hid hclient
    by_contra hnot
    rw [not_or] at hnot
    obtain ⟨q, hq, hqr⟩ := mem_update.mp (hsettles r hr hnot.1)
    have hqid : q.id = r.id := by
      rw [← hqr]
      split <;> rfl
    cases Table.eq_of_key_eq hq hr hqid
    rw [if_pos (by simp [hid, hclient])] at hqr
    exact hnot.2 ⟨congrArg Memory.pinned hqr.symm, congrArg Memory.updatedAt hqr.symm⟩
  · intro hkeep r hr hsettled
    refine mem_update.mpr ⟨r, hr, ?_⟩
    split
    · next hp =>
        simp only [Bool.and_eq_true, beq_iff_eq] at hp
        obtain ⟨rfl, rfl⟩ := (hkeep r hr hp.1 hp.2).resolve_left hsettled
        rfl
    · rfl

theorem delete_keeps {clientId memoryId now : String} (h : s.Chained) :
    (s.delete clientId memoryId now).Chained ∧ Settles s (s.delete clientId memoryId now) := by
  refine ⟨h.update fun r => ⟨rfl, rfl, rfl, rfl⟩, settles_update fun r hp => ?_⟩
  simp only [Bool.and_eq_true, beq_iff_eq] at hp
  exact hp.2

end Memories

/-! ### Calls -/

/-- The row that a call has found newest, in its slot. -/
abbrev Mode := Option (Slot × Option (String × ℕ))

/-- A put writes the version after the row that the call has found newest. -/
def protocol : Program.Protocol Mode MemoryAction MemoryAction.Answer where
  allowed
    | m, .put _ row => ∃ found, m = some (row.slot, found) ∧
        row.version = (found.map fun l => l.2 + 1).getD 1 ∧ row.supersedesId = found.map Prod.fst
    | _, _ => True
  move
    | _, .latest slot, found => some (slot, found)
    | m, _, _ => m

section Follows

variable {α : Type} {lib : Library} {m : Mode}

/-- A call keeps to the protocol. -/
@[irreducible] def Follows (m : Mode) (p : MemoryProgram α) : Prop :=
  Program.Follows protocol (fun _ _ => True) m p

theorem follows_def {p : MemoryProgram α} :
    Follows m p ↔ Program.Follows protocol (fun _ _ => True) m p := by
  rw [Follows]

theorem follows_pure {x : α} : Follows m (pure x : MemoryProgram α) := follows_def.mpr trivial

theorem follows_throw {e : PlatformError} : Follows m (throw e : MemoryProgram α) :=
  follows_def.mpr trivial

theorem follows_check {β : Type} {x : Except PlatformError β} {f : β → MemoryProgram α}
    (h : ∀ b, Follows m (f b)) : Follows m (check x >>= f) := by
  cases x with
  | error e => exact follows_throw
  | ok b => exact h b

theorem follows_ask {a : MemoryAction} {f : a.Answer → MemoryProgram α}
    (ha : protocol.allowed m a) (h : ∀ r, Follows (protocol.move m a r) (f r)) :
    Follows m (ask a >>= f) :=
  follows_def.mpr ⟨ha, fun r => follows_def.mp (h r)⟩

theorem follows_write {superseded : Option String} {row : Memory} {f : Unit → MemoryProgram α}
    (ha : protocol.allowed m (.put superseded row)) (h : Follows m (f ())) :
    Follows m (write superseded row >>= f) := by
  refine follows_def.mpr ⟨ha, fun result => ?_⟩
  cases result with
  | error e => trivial
  | ok u => exact follows_def.mp h

theorem follows_bind {β : Type} {p : MemoryProgram β} {f : β → MemoryProgram α}
    (h : Follows m p) (hf : ∀ m b, Follows m (f b)) : Follows m (p >>= f) :=
  follows_def.mpr (Program.Follows.bindExcept (follows_def.mp h)
    (fun m b _ => follows_def.mp (hf m b)) fun _ _ _ => trivial)

theorem follows_get (clientId memoryId : String) (includeHistory : Bool) :
    Follows m (get lib clientId memoryId includeHistory) := by
  refine follows_check fun clientId => follows_check fun memoryId => ?_
  refine follows_ask trivial fun row => ?_
  cases row with
  | none => exact follows_throw
  | some row => exact follows_pure

theorem follows_put (request : PutRequest) (id now : String) :
    Follows m (put lib request id now) := by
  refine follows_check fun content => ?_
  refine follows_ask trivial fun found => ?_
  refine follows_ask trivial fun active => ?_
  exact follows_write ⟨found, rfl, rfl, rfl⟩ (follows_get _ _ _)

theorem follows_call (call : MemoryCall) : Follows m (call.program lib) := by
  cases call with
  | put request id now => exact follows_put request id now
  | pin clientId memoryId pinned now =>
      exact follows_bind (follows_get _ _ _) fun m record =>
        follows_ask trivial fun _ => follows_get _ _ _
  | restore clientId memoryId actor id now =>
      refine follows_bind (follows_get _ _ _) fun m historic => ?_
      split
      · exact follows_throw
      · exact follows_put _ _ _
  | delete clientId memoryId now =>
      exact follows_bind (follows_get _ _ _) fun m record =>
        follows_ask trivial fun _ => follows_get _ _ _

end Follows

/-! ### Runs -/

section Runs

variable {W : Type} [DecidableEq W] {lib : Library}

/-- A put supersedes the newest row, unless it is refused; a pin finds its row active, or leaves it
as it is. -/
def UpToDate (s : Memories) : MemoryAction → Prop
  | .put superseded row => s.Refused superseded row ∨
      (s.latest? row.slot).map Memory.id = row.supersedesId
  | .pin clientId memoryId pinned now => ∀ r ∈ s.rows, r.id = memoryId →
      r.slot.clientId = clientId → r.status = .active ∨ r.pinned = pinned ∧ r.updatedAt = now
  | _ => True

def StepsUpToDate (p : MemoryPool W) : Program.PoolStep W MemoryCall Unit → Prop
  | .start _ _ => True
  | .act w _ => ∀ next ∈ p.next? w, UpToDate p.shared next.2

/-- What the callers have found is in the table. -/
def Informed (s : Memories) (modes : W → Mode) : Prop :=
  ∀ w slot found, modes w = some (slot, found) → s.Found slot found

/-- Rows keep their ids, slots and versions. -/
def Keeps (s t : Memories) : Prop :=
  ∀ r ∈ s.rows, ∃ q ∈ t.rows, q.id = r.id ∧ q.slot = r.slot ∧ q.version = r.version

theorem keeps_of_update {p : Memory → Bool} {f : Memory → Memory}
    (hrows : t.rows.rows = s.rows.rows.map fun r => if p r then f r else r)
    (hf : ∀ r, Memories.SameVersion r (f r)) : Keeps s t := by
  intro r hr
  have hkeep := Memories.sameVersion_ite (p := p) hf r
  refine ⟨_, ?_, hkeep.id, hkeep.slot, hkeep.version⟩
  rw [Table.mem_def, hrows]
  exact List.mem_map_of_mem hr

theorem keeps_answer (a : MemoryAction) : Keeps s (a.answer s ()).2 := by
  have hrefl : Keeps s s := fun r hr => ⟨r, hr, rfl, rfl, rfl⟩
  cases a with
  | select clientId memoryId includeHistory => exact hrefl
  | latest slot => exact hrefl
  | active slot => exact hrefl
  | put superseded row =>
      simp only [MemoryAction.answer]
      cases hput : s.put? superseded row with
      | none => exact hrefl
      | some s' =>
          have hsupersede : Keeps s (s.supersede superseded row.slot.clientId row.updatedAt) :=
            keeps_of_update rfl fun _ => ⟨rfl, rfl, rfl, rfl⟩
          intro r hr
          obtain ⟨q, hq, hkeep⟩ := hsupersede r hr
          refine ⟨q, ?_, hkeep⟩
          rw [Table.mem_def, Memories.insert?_eq_some hput]
          exact List.mem_append_left _ hq
  | pin clientId memoryId pinned now =>
      exact keeps_of_update rfl fun _ => ⟨rfl, rfl, rfl, rfl⟩
  | delete clientId memoryId now =>
      exact keeps_of_update rfl fun _ => ⟨rfl, rfl, rfl, rfl⟩

omit [DecidableEq W] in
theorem Informed.found {modes : W → Mode} (h : Informed s modes) (hkeeps : Keeps s t) {w : W}
    {found : Option (String × ℕ)} (hmode : modes w = some (slot, found)) : t.Found slot found := by
  intro l hl
  obtain ⟨q, hq, hid, hversion⟩ := h w slot found hmode l hl
  obtain ⟨hq, hslot⟩ := Memories.mem_ofSlot.mp hq
  obtain ⟨q', hq', hid', hslot', hversion'⟩ := hkeeps q hq
  exact ⟨q', Memories.mem_ofSlot.mpr ⟨hq', hslot'.trans hslot⟩, hid'.trans hid,
    hversion'.trans hversion⟩

theorem found_latest : s.Found slot ((s.latest? slot).map fun r => (r.id, r.version)) := by
  intro l hl
  obtain ⟨r, hr, rfl⟩ := Option.map_eq_some_iff.mp hl
  exact ⟨r, (Memories.latest?_eq_some hr).1, rfl, rfl⟩

/-- Callers stay informed, whatever is done. -/
theorem Informed.act {modes : W → Mode} (h : Informed s modes) (w : W) (a : MemoryAction) :
    Informed (a.answer s ()).2
      (Function.update modes w (protocol.move (modes w) a (a.answer s ()).1)) := by
  have hkeeps := keeps_answer (s := s) a
  intro w' slot found hmode
  by_cases hw : w' = w
  · rw [hw, Function.update_self] at hmode
    cases a with
    | latest slot' =>
        cases hmode
        exact found_latest
    | _ => exact h.found hkeeps hmode
  · rw [Function.update_of_ne hw] at hmode
    exact h.found hkeeps hmode

/-- The calls under way keep to the protocol, and are informed. -/
def Tracked (p : MemoryPool W) : Prop :=
  ∃ modes, Program.Tracks (fun _ => protocol) (fun _ => True) none p.threads modes ∧
    Informed p.shared modes

theorem tracked_step {p : MemoryPool W} (h : Tracked p)
    (l : Program.PoolStep W MemoryCall Unit) : Tracked ((memoryCalls W lib).step p l) :=
  Program.pool_step (G := fun _ _ => True) (fun call => follows_def.mp (follows_call call))
    (fun s modes w hI _ w' slot found hmode => by
      by_cases hw : w' = w
      · rw [hw, Function.update_self] at hmode
        cases hmode
      · rw [Function.update_of_ne hw] at hmode
        exact hI w' slot found hmode)
    (fun p modes w call a next input _ hI _ _ _ => hI.act w a) h trivial

/-- An action keeps the chains, and what is settled, exactly when it is up to date. -/
theorem answer_iff {m : Mode} {a : MemoryAction} (h : s.Chained) (hallowed : protocol.allowed m a)
    (hinformed : ∀ slot found, m = some (slot, found) → s.Found slot found) :
    (a.answer s ()).2.Chained ∧ s.Settles (a.answer s ()).2 ↔ UpToDate s a := by
  have hsame : s.Chained ∧ s.Settles s := ⟨h, .refl s⟩
  cases a with
  | select clientId memoryId includeHistory => exact iff_of_true hsame trivial
  | latest slot => exact iff_of_true hsame trivial
  | active slot => exact iff_of_true hsame trivial
  | put superseded row =>
      obtain ⟨found, hm, hversion, hsupersedes⟩ := hallowed
      simp only [MemoryAction.answer, UpToDate, ← Memories.put?_eq_none_iff]
      cases hput : s.put? superseded row with
      | none => simpa using hsame
      | some s' =>
          rw [Memories.put_iff h hput (hinformed _ _ hm) hversion hsupersedes]
          simp
  | pin clientId memoryId pinned now => exact Memories.pin_iff h
  | delete clientId memoryId now => exact iff_of_true (Memories.delete_keeps h) trivial

/-- In every run, and between any two of its states: memories are chains of revisions, and what was
deleted or superseded stays as it is. This is so exactly in the runs whose steps are up to date. -/
theorem chained_iff_upToDate (W : Type) [DecidableEq W] (lib : Library)
    (ls : List (Program.PoolStep W MemoryCall Unit)) :
    (∀ ks ms, ks <+: ms → ms <+: ls →
      ((memoryCalls W lib).run ms).shared.Chained ∧
        ((memoryCalls W lib).run ks).shared.Settles ((memoryCalls W lib).run ms).shared) ↔
      (memoryCalls W lib).Guarded StepsUpToDate ls := by
  refine Machine.forall_prefixes_iff_guarded
    (R := fun p q => q.shared.Chained ∧ p.shared.Settles q.shared) (J := Tracked)
    ⟨Memories.chained_empty, .refl _⟩ (fun p q r hpq hqr => ⟨hqr.1, hpq.2.trans hqr.2⟩)
    (fun p q h => ⟨h.1, .refl _⟩) ⟨fun _ => none, fun _ => rfl, nofun⟩
    (fun p l h => tracked_step h l) ?_ ls
  rintro p l ⟨modes, htracks, hinformed⟩ hp
  cases l with
  | start w call =>
      refine iff_of_true ?_ trivial
      simp only [memoryCalls, Program.pool, Program.Pool.step]
      split <;> exact hp
  | act w input =>
      simp only [memoryCalls, Program.pool, Program.Pool.step, StepsUpToDate,
        Program.Pool.next?]
      cases hw : p.threads w with
      | none => simpa using hp
      | some thread =>
          obtain ⟨call, left⟩ := thread
          cases left with
          | done result => simpa [Program.head?] using hp
          | act a next =>
              have hallowed := (htracks.follows hw).1
              have hiff := answer_iff hp.1 hallowed fun slot found => hinformed w slot found
              simpa [Program.head?] using hiff

end Runs

section Example

def exampleSlot : Slot := ⟨"shire", .client, "shire", "printer"⟩

def examplePut (id : String) : MemoryCall :=
  .put
    { clientId := "shire", scopeType := .client, scopeId := "shire", key := "printer"
      value := .text "second floor", summary := "", provenance := "ticket", actor := none
      pinned := false, expiresAt := none }
    id "2026-07-01T09:00:00+00:00"

def exampleDelete : MemoryCall := .delete "shire" "b" "2026-07-01T09:00:01+00:00"

/-- A put finds no memory; another caller puts one, and deletes it; the put writes version 1
again. -/
def exampleSteps : List (Program.PoolStep Bool MemoryCall Unit) :=
  [.start true (examplePut "a"), .act true (), .start false (examplePut "b")] ++
    List.replicate 4 (.act false ()) ++ [.start false exampleDelete] ++
    List.replicate 3 (.act false ()) ++ List.replicate 2 (.act true ())

/-- A version is stored twice. -/
theorem not_chained : ¬ ∀ (W : Type) [DecidableEq W] (lib : Library)
    (ls : List (Program.PoolStep W MemoryCall Unit)) (ks ms : _), ks <+: ms → ms <+: ls →
      ((memoryCalls W lib).run ms).shared.Chained ∧
        ((memoryCalls W lib).run ks).shared.Settles ((memoryCalls W lib).run ms).shared := by
  intro hall
  have hcounted := (hall Bool exampleLibrary exampleSteps _ _ (List.prefix_refl _)
    (List.prefix_refl _)).1.counted exampleSlot
  have hversions : ((memoryCalls Bool exampleLibrary).run exampleSteps).shared.versions
      exampleSlot = [1, 1] := by decide
  rw [hversions] at hcounted
  exact absurd hcounted.nodup (by decide)

end Example

end WaitLocalAgent.AgentMemory
