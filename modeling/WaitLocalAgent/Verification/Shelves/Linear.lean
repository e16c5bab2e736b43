import WaitLocalAgent.Model.MspPlaybooks

/-! # Linear revisions of the gallery and of the playbooks

Every transaction writes one entry with the first revision of its version, and every call bases it
on an entry that it has read. -/

namespace WaitLocalAgent.Shelves

open Foundation Approvals

variable {E R : Type} {C : Columns E R} {s s' : Shelf C}

def shelfVersions (C : Columns E R) (Records : E → R → Prop) : Versioned (Shelf C) String E R where
  entry s id := s.entries.find? id
  revision s id version := s.selectRevision id version
  version := C.version
  Records := Records

/-- What every draft of a revision has, whatever id it gets. -/
structure DraftOf (C : Columns E R) (Records : E → R → Prop) (row : E) (draft : ℕ → R) : Prop where
  entryId : ∀ n, C.entryId (draft n) = C.id row
  version : ∀ n, C.revisionVersion (draft n) = C.version row
  records : ∀ n, Records row (draft n)

variable {id : String}

theorem selectRevision_insert {t : Shelf C} {draft : ℕ → R} {h : ∀ n, C.revisionId (draft n) = n}
    {version : ℕ} (ht : t.revisions = s.revisions.insert draft h)
    (hid : ∀ n, C.entryId (draft n) = id) (hversion : ∀ n, C.revisionVersion (draft n) = version)
    (hfree : s.selectRevision id version = none) (id' : String) (version' : ℕ) :
    t.selectRevision id' version' =
      if id' = id ∧ version' = version then some (draft (s.revisions.lastKey + 1))
      else s.selectRevision id' version' := by
  by_cases hkey : id' = id ∧ version' = version
  · obtain ⟨rfl, rfl⟩ := hkey
    unfold Shelf.selectRevision at hfree ⊢
    simp [ht, AutoTable.insert, hfree, hid, hversion]
  · have hlast : (id == id' && version == version') = false := by
      rw [Bool.eq_false_iff]
      simp only [ne_eq, Bool.and_eq_true, beq_iff_eq]
      rintro ⟨rfl, rfl⟩
      exact hkey ⟨rfl, rfl⟩
    unfold Shelf.selectRevision
    simp [ht, AutoTable.insert, hid, hversion, hlast, hkey]

/-- A revision that is inserted beside a new row of its entry. -/
theorem insertRevision_writes {Records : E → R → Prop} {row : E} {draft : ℕ → R}
    {hdraft : ∀ n, C.revisionId (draft n) = n} {event : AuditEvent} {entries : Table C.id}
    (h : { s with entries }.insertRevision draft hdraft event = .ok s')
    (hentry : ∀ j, entries.find? j = if j = C.id row then some row else s.entries.find? j)
    (hrow : DraftOf C Records row draft) :
    ∃ r, (shelfVersions C Records).Writes (C.id row) row r s s' := by
  simp only [Shelf.insertRevision, bind_eq_ok, raiseIf_eq_ok, pure_eq_ok] at h
  obtain ⟨_, hfree, rfl⟩ := h
  rw [hrow.entryId, hrow.version, Bool.not_eq_true, Option.isSome_eq_false_iff,
    Option.isNone_iff_eq_none] at hfree
  have hfree : s.selectRevision (C.id row) (C.version row) = none := hfree
  exact ⟨draft (s.revisions.lastKey + 1), hfree, hentry,
    selectRevision_insert (h := hdraft) rfl hrow.entryId hrow.version hfree, hrow.records _⟩

theorem insertEntry_writes {Records : E → R → Prop} {row : E} {draft : ℕ → R}
    {hdraft : ∀ n, C.revisionId (draft n) = n} {event : AuditEvent}
    (h : s.insertEntry row draft hdraft event = .ok s') (hrow : DraftOf C Records row draft) :
    s.entries.find? (C.id row) = none ∧
      ∃ r, (shelfVersions C Records).Writes (C.id row) row r s s' := by
  unfold Shelf.insertEntry at h
  split at h
  · cases h
  · rename_i entries hinsert
    exact ⟨Table.find?_eq_none_of_insert? hinsert,
      insertRevision_writes h (fun _ => Table.find?_of_insert? hinsert) hrow⟩

theorem updateEntry_writes {Records : E → R → Prop} {set : E → E}
    {hset : ∀ e, C.id (set e) = C.id e} {draft : ℕ → R}
    {hdraft : ∀ n, C.revisionId (draft n) = n} {event : AuditEvent}
    (h : s.updateEntry id set hset draft hdraft event = .ok s')
    {d : E} (hd : s.entries.find? id = some d) (hrow : DraftOf C Records (set d) draft) :
    ∃ r, (shelfVersions C Records).Writes id (set d) r s s' := by
  simp only [Shelf.updateEntry, bind_eq_ok] at h
  obtain ⟨_, -, h⟩ := h
  have hid : C.id (set d) = id := (hset d).trans (Table.key_of_find?_eq_some hd)
  rw [← hid]
  refine insertRevision_writes h ?_ hrow
  intro j
  rw [Table.find?_update_key (k := id) (by simp), hd, hid]
  rfl

theorem selectEntry_eq_some {admits : Option ClientId → Bool} {e : E}
    (h : s.selectEntry id admits = some e) : s.entries.find? id = some e :=
  Option.eq_some_of_filter_eq_some h

theorem isSome_selectEntry {admits : Option ClientId → Bool} {e : E}
    (h : s.entries.find? id = some e) (hadmits : admits (C.clientId e) = true) :
    (s.selectEntry id admits).isSome := by
  simp [Shelf.selectEntry, h, hadmits]

/-- What a call sees of the entry that it reads. -/
def seenAnswer (C : Columns E R) : (q : ShelfRead) → q.Answer E R →
    Option (Seen String (Option ClientId))
  | .entry id _, answer => answer.map fun e => ⟨id, C.version e, C.clientId e⟩
  | .revision _ _, _ => none

/-- The answer says that the entry is not there. -/
def missedAnswer : (q : ShelfRead) → q.Answer E R → String → Option ClientId → Bool
  | .entry id admits, answer, key, owner => answer.isNone && id == key && admits owner
  | .revision _ _, _, _, _ => false

variable {N : Type}

def ShelfWrite.entryId (C : Columns E R) : ShelfWrite E N → String
  | .create entry => C.id entry
  | .update entryId _ _ _ => entryId

def ShelfWrite.base (C : Columns E R) : ShelfWrite E N → Option ℕ
  | .create _ => none
  | .update _ existing _ _ => some (C.version existing)

def ShelfWrite.clientId (C : Columns E R) : ShelfWrite E N → Option ClientId
  | .create entry => C.clientId entry
  | .update _ existing _ _ => C.clientId existing

def shelfLedger (kind : ShelfKind C N) (Records : E → R → Prop) :
    Ledger (Shelf C) String E R (Option ClientId) ShelfRead (ShelfWrite E N) ShelfError
      (ShelfRead.Answer E R) where
  toVersioned := shelfVersions C Records
  owner := C.clientId
  read := kind.read
  sees := seenAnswer C
  misses := missedAnswer
  commit := kind.commit
  target := ShelfWrite.entryId C
  base := ShelfWrite.base C
  onBehalf := ShelfWrite.clientId C

/-- A kind whose transactions write one row with the revision of its version, and whose readers
keep the version and the client. -/
structure ShelfKind.Sound (kind : ShelfKind C N) (Records : E → R → Prop) : Prop where
  version_fromRow : ∀ e, C.version (kind.entryFromRow e) = C.version e
  clientId_fromRow : ∀ e, C.clientId (kind.entryFromRow e) = C.clientId e
  create : ∀ entry s s', kind.commit (.create entry) s = .ok s' →
    ∃ e r, (shelfVersions C Records).Writes (C.id entry) e r s s' ∧
      s.entries.find? (C.id entry) = none ∧ C.version e = 1 ∧ C.clientId e = C.clientId entry
  update : ∀ entryId existing next now s s' d,
    kind.commit (.update entryId existing next now) s = .ok s' →
    s.entries.find? entryId = some d →
    ∃ e r, (shelfVersions C Records).Writes entryId e r s s' ∧
      C.version e = C.version existing + 1 ∧ C.clientId e = C.clientId d

theorem shelfLedger_lawful {kind : ShelfKind C N} {Records : E → R → Prop}
    (hkind : kind.Sound Records) : (shelfLedger kind Records).Lawful := by
  refine ⟨?_, ?_, ?_, ?_⟩
  · intro q s x hx
    cases q with
    | revision id version => cases hx
    | entry id admits =>
        obtain ⟨e, he, rfl⟩ := Option.map_eq_some_iff.mp hx
        obtain ⟨row, hrow, rfl⟩ := Option.map_eq_some_iff.mp he
        exact ⟨row, selectEntry_eq_some hrow, (hkind.version_fromRow row).symm,
          (hkind.clientId_fromRow row).symm⟩
  · intro q s k e he
    cases q with
    | revision id version => rfl
    | entry id admits =>
        simp only [shelfLedger, missedAnswer, ShelfKind.read, Option.isNone_map]
        by_cases hid : id = k
        · subst hid
          cases hadmits : admits (C.clientId e) with
          | false => simp
          | true =>
              have hsome := isSome_selectEntry he hadmits
              simp [Option.isNone_eq_false_iff.mpr hsome]
        · simp [hid]
  · intro t s s' hcommit hbase
    cases t with
    | create entry => exact hkind.create entry s s' hcommit
    | update entryId existing next now => cases hbase
  · intro t s s' v d hcommit hbase hd howner
    cases t with
    | create entry => cases hbase
    | update entryId existing next now =>
        cases hbase
        obtain ⟨e, r, hw, hversion, hclient⟩ :=
          hkind.update entryId existing next now s s' d hcommit hd
        exact ⟨e, r, hw, hversion, hclient.trans howner⟩

/-- A call raises before it writes, and bases its write on what it has read. -/
def ShelfFollows {α : Type} (kind : ShelfKind C N) (Records : E → R → Prop)
    (m : Ledger.Mode String (Option ClientId)) (p : ShelfCall E R N α) : Prop :=
  Program.Follows (shelfLedger kind Records).protocol Ledger.RaisesUnwritten m p.run

section Follows

variable {kind : ShelfKind C N} {Records : E → R → Prop} {α : Type}
  {seen : List (Seen String (Option ClientId))} {m : Ledger.Mode String (Option ClientId)}

theorem follows_raise {error : ShelfError} :
    ShelfFollows kind Records (.reading seen) (throw error : ShelfCall E R N α) :=
  Ledger.follows_throw nofun

theorem follows_ofExcept {x : Except ShelfError α} {β : Type} {f : α → ShelfCall E R N β}
    (hf : ∀ a, ShelfFollows kind Records (.reading seen) (f a)) :
    ShelfFollows kind Records (.reading seen) (ofExcept x >>= f) := by
  cases x with
  | ok a => exact hf a
  | error e => exact fun _ _ h => by cases h

/-- After the entry has been read, its version may be written upon. -/
theorem follows_readEntry {admits : Option ClientId → Bool}
    {f : Option E → ShelfCall E R N α}
    (hnone : ShelfFollows kind Records (.reading seen) (f none))
    (hsome : ∀ e, ShelfFollows kind Records
      (.reading (⟨id, C.version e, C.clientId e⟩ :: seen)) (f (some e))) :
    ShelfFollows kind Records (.reading seen) (readEntry id admits >>= f) := by
  refine Ledger.follows_read fun a => ?_
  cases a with
  | none => exact hnone
  | some e => exact hsome e

theorem follows_readRevision {version : ℕ} {f : Option R → ShelfCall E R N α}
    (h : ∀ r, ShelfFollows kind Records (.reading seen) (f r)) :
    ShelfFollows kind Records (.reading seen) (readRevision id version >>= f) :=
  Ledger.follows_read h

/-- The closing read finds what has been written. -/
theorem follows_closing {clientId : Option ClientId}
    {admits : Option ClientId → Bool} {f : Option E → ShelfCall E R N α}
    (hadmits : admits clientId = true)
    (hsome : ∀ e, ShelfFollows kind Records (.wrote id clientId) (f (some e)))
    (hnone : ShelfFollows kind Records .lost (f none)) :
    ShelfFollows kind Records (.wrote id clientId) (readEntry id admits >>= f) := by
  refine Ledger.follows_read fun a => ?_
  cases a with
  | some e => exact hsome e
  | none =>
      have hlost : (shelfLedger kind Records).protocol.move (.wrote id clientId)
          (.read (.entry id admits)) none = .lost := by
        simp [Ledger.protocol, shelfLedger, missedAnswer, hadmits]
      rw [hlost]
      exact hnone

theorem follows_lost {error : ShelfError} :
    ShelfFollows kind Records .lost (throw error : ShelfCall E R N α) :=
  Ledger.follows_throw nofun

theorem follows_update {id now : String} {existing : E} {next : N} {f : Unit → ShelfCall E R N α}
    (hmem : ⟨id, C.version existing, C.clientId existing⟩ ∈ seen)
    (h : ShelfFollows kind Records (.wrote id (C.clientId existing)) (f ())) :
    ShelfFollows kind Records (.reading seen)
      (writeEntry (.update id existing next now) >>= f) :=
  Ledger.follows_write (.inr ⟨_, hmem, rfl, rfl, rfl⟩) h

theorem follows_create {entry : E} {f : Unit → ShelfCall E R N α}
    (h : ShelfFollows kind Records (.wrote (C.id entry) (C.clientId entry)) (f ())) :
    ShelfFollows kind Records (.reading seen) (writeEntry (.create entry) >>= f) :=
  Ledger.follows_write (.inl rfl) h

end Follows

end WaitLocalAgent.Shelves
