import Mathlib

/-! # Keyed tables

A table lists its rows in insertion order and carries the proof that no two rows share a
primary key. Statements that would break the key do not build a table. -/

namespace WaitLocalAgent.Foundation

variable {α κ : Type*} {key : α → κ}

@[ext] structure Table (key : α → κ) where
  rows : List α
  nodup : (rows.map key).Nodup

variable {r : α} {t u : Table key}

namespace Table

instance : Membership α (Table key) := ⟨fun t r => r ∈ t.rows⟩

def empty : Table key := ⟨[], List.nodup_nil⟩

def singleton (r : α) : Table key := ⟨[r], List.nodup_singleton (key r)⟩

variable {t : Table key}

theorem mem_def : r ∈ t ↔ r ∈ t.rows := Iff.rfl

@[simp] theorem not_mem_empty (r : α) : ¬ r ∈ (empty : Table key) := List.not_mem_nil

@[simp] theorem rows_empty : (empty : Table key).rows = [] := rfl

@[simp] theorem mem_singleton {r s : α} : r ∈ (singleton s : Table key) ↔ r = s := by
  simp [mem_def, singleton]

/-- Two rows of one table with the same key are the same row. -/
theorem eq_of_key_eq {r s : α} (hr : r ∈ t) (hs : s ∈ t)
    (h : key r = key s) : r = s :=
  List.inj_on_of_nodup_map t.nodup hr hs h

section Lookup

variable [DecidableEq κ]

/-- `select … where key = k`. -/
def find? (t : Table key) (k : κ) : Option α := t.rows.find? fun r => key r = k

theorem find?_eq_some_iff {k : κ} :
    t.find? k = some r ↔ r ∈ t ∧ key r = k := by
  constructor
  · intro h
    exact ⟨List.mem_of_find?_eq_some h, by simpa using List.find?_some h⟩
  · rintro ⟨hr, rfl⟩
    cases h : t.find? (key r) with
    | none =>
        simp only [find?, List.find?_eq_none, decide_eq_true_eq] at h
        exact absurd rfl (h r hr)
    | some s =>
        have hs : key s = key r := by simpa using List.find?_some h
        rw [eq_of_key_eq (List.mem_of_find?_eq_some h) hr hs]

theorem mem_of_find?_eq_some {k : κ} (h : t.find? k = some r) : r ∈ t :=
  (find?_eq_some_iff.mp h).1

theorem key_of_find?_eq_some {k : κ} (h : t.find? k = some r) :
    key r = k :=
  (find?_eq_some_iff.mp h).2

theorem find?_key (hr : r ∈ t) : t.find? (key r) = some r :=
  find?_eq_some_iff.mpr ⟨hr, rfl⟩

/-- The keys in their order and what is stored under each make up a table. -/
theorem eq_of_find?_eq (hkeys : t.rows.map key = u.rows.map key)
    (hfind : ∀ k, t.find? k = u.find? k) : t = u := by
  have hlength : t.rows.length = u.rows.length := by
    simpa using congrArg List.length hkeys
  refine Table.ext (List.ext_getElem hlength fun i hi hi' => ?_)
  have hkey : key t.rows[i] = key u.rows[i] := by
    have h := List.getElem_of_eq hkeys (i := i) (by simpa using hi)
    simpa using h
  have ht : t.find? (key t.rows[i]) = some t.rows[i] := find?_key (List.getElem_mem hi)
  have hu : u.find? (key u.rows[i]) = some u.rows[i] := find?_key (List.getElem_mem hi')
  rw [hkey, hfind, hu] at ht
  exact (Option.some.inj ht).symm

end Lookup

/-- `insert into …` of a row whose key is new. -/
def insert (t : Table key) (r : α) (h : ∀ s ∈ t, key s ≠ key r) : Table key :=
  ⟨t.rows ++ [r], by
    have hn : key r ∉ t.rows.map key := by
      intro hm
      obtain ⟨s, hs, he⟩ := List.mem_map.mp hm
      exact h s hs he
    simpa using List.Nodup.concat hn t.nodup⟩

@[simp] theorem mem_insert {r s : α} {h : ∀ s ∈ t, key s ≠ key r} :
    s ∈ t.insert r h ↔ s ∈ t ∨ s = r := by
  simp [mem_def, insert]

@[simp] theorem rows_insert {h : ∀ s ∈ t, key s ≠ key r} :
    (t.insert r h).rows = t.rows ++ [r] := rfl

section Insert

variable [DecidableEq κ]

/-- `insert into …`; `none` is the integrity error for a key that is stored already. -/
def insert? (t : Table key) (r : α) : Option (Table key) :=
  if h : ∀ s ∈ t.rows, key s ≠ key r then some (t.insert r h) else none

theorem insert?_eq_some_iff :
    t.insert? r = some u ↔ ∃ h : ∀ s ∈ t, key s ≠ key r, t.insert r h = u := by
  unfold insert?
  split
  · rename_i h
    simp only [Option.some.injEq]
    exact ⟨fun hu => ⟨h, hu⟩, fun ⟨_, hu⟩ => hu⟩
  · rename_i h
    simp only [reduceCtorEq, false_iff]
    rintro ⟨hn, -⟩
    exact h hn

theorem find?_of_insert? {k : κ} (h : t.insert? r = some u) :
    u.find? k = if k = key r then some r else t.find? k := by
  obtain ⟨hn, rfl⟩ := insert?_eq_some_iff.mp h
  by_cases hk : k = key r
  · rw [if_pos hk, find?_eq_some_iff]
    exact ⟨mem_insert.mpr (.inr rfl), hk.symm⟩
  · rw [if_neg hk]
    simp only [find?, rows_insert, List.find?_append]
    simp [Ne.symm hk]

theorem find?_eq_none_of_insert? (h : t.insert? r = some u) :
    t.find? (key r) = none := by
  obtain ⟨hn, -⟩ := insert?_eq_some_iff.mp h
  simpa [find?, mem_def] using hn

theorem exists_of_insert?_eq_none (h : t.insert? r = none) :
    ∃ s, t.find? (key r) = some s := by
  unfold insert? at h
  split at h
  · cases h
  · rename_i hn
    push Not at hn
    obtain ⟨s, hs, hkey⟩ := hn
    exact ⟨s, find?_eq_some_iff.mpr ⟨hs, hkey⟩⟩

theorem mem_of_insert? {r s : α} (h : t.insert? r = some u) :
    s ∈ u ↔ s ∈ t ∨ s = r := by
  obtain ⟨hn, rfl⟩ := insert?_eq_some_iff.mp h
  exact mem_insert

end Insert

/-- `update … set … where …`; the assignments `f` leave the key alone. -/
def update (t : Table key) (p : α → Bool) (f : α → α) (hf : ∀ r, key (f r) = key r) :
    Table key :=
  ⟨t.rows.map fun r => if p r then f r else r, by
    have h : ∀ r, key (if p r then f r else r) = key r := by
      intro r
      split
      · exact hf r
      · rfl
    simpa [Function.comp_def, h] using t.nodup⟩

/-- `insert into … on conflict … do update set …`. -/
def upsert [DecidableEq κ] (t : Table key) (r : α) (f : α → α) (hf : ∀ s, key (f s) = key s) :
    Table key :=
  match t.insert? r with
  | some u => u
  | none => t.update (fun s => key s = key r) f hf

def delete (t : Table key) (p : α → Bool) : Table key :=
  ⟨t.rows.filter fun r => !p r, t.nodup.sublist (List.filter_sublist.map key)⟩

/-- `cursor.rowcount` of a statement with this `where` clause. -/
def rowcount (t : Table key) (p : α → Bool) : ℕ := t.rows.countP p

section Update

variable {t : Table key} {p : α → Bool} {f : α → α} {hf : ∀ r, key (f r) = key r}

theorem mem_update {s : α} :
    s ∈ t.update p f hf ↔ ∃ r ∈ t, (if p r then f r else r) = s := by
  simp [mem_def, update]

theorem mem_update_of_mem (hr : r ∈ t) :
    (if p r then f r else r) ∈ t.update p f hf :=
  mem_update.mpr ⟨r, hr, rfl⟩

theorem mem_update_of_not (hr : r ∈ t) (hp : p r = false) : r ∈ t.update p f hf := by
  rw [mem_update]
  exact ⟨r, hr, by simp [hp]⟩

theorem update_false : t.update (fun _ => false) f hf = t := by
  apply Table.ext
  simp [update]

theorem update_congr {q : α → Bool} (h : ∀ r ∈ t, p r = q r) :
    t.update p f hf = t.update q f hf := by
  apply Table.ext
  apply List.map_congr_left
  intro r hr
  rw [h r hr]

/-- Two updates with the same idempotent assignments are one. -/
theorem update_update {q : α → Bool} (hidem : ∀ r, f (f r) = f r) :
    (t.update p f hf).update q f hf = t.update (fun r => p r || q r) f hf := by
  apply Table.ext
  simp only [update, List.map_map]
  apply List.map_congr_left
  intro r _
  by_cases hp : p r = true
  · simp [hp, hidem]
  · simp [hp]

theorem foldl_update {β : Type*} {p : β → α → Bool} (hidem : ∀ r, f (f r) = f r) (bs : List β) :
    bs.foldl (fun t b => t.update (p b) f hf) t =
      t.update (fun r => bs.any fun b => p b r) f hf := by
  induction bs generalizing t with
  | nil => exact update_false.symm
  | cons b bs ih =>
      rw [List.foldl_cons, ih, update_update hidem]
      rfl

@[simp] theorem keys_update : (t.update p f hf).rows.map key = t.rows.map key := by
  have h : ∀ r, key (if p r then f r else r) = key r := by
    intro r
    split
    · exact hf r
    · rfl
  simp [update, Function.comp_def, h]

@[simp] theorem mem_delete {s : α} : s ∈ t.delete p ↔ s ∈ t ∧ p s = false := by
  simp [mem_def, delete]

theorem rowcount_pos : 0 < t.rowcount p ↔ ∃ r ∈ t, p r := by
  simp [rowcount, mem_def]

/-- A search by what the assignments leave alone sees those of the row that it finds. -/
theorem find?_reverse_update (hf : ∀ r, key (f r) = key r) {q : α → Bool}
    (hq : ∀ r, q (f r) = q r) : (t.update p f hf).rows.reverse.find? q =
      (t.rows.reverse.find? q).map fun r => if p r then f r else r := by
  have hsame : ∀ r, q (if p r then f r else r) = q r := by
    intro r
    split
    · exact hq r
    · rfl
  simp only [update, ← List.map_reverse, List.find?_map, Function.comp_def, hsame]

/-- A look-up by key sees the assignments of the row that it finds. -/
theorem find?_update [DecidableEq κ] {k : κ} :
    (t.update p f hf).find? k = (t.find? k).map fun r => if p r then f r else r := by
  have hkey : ∀ r, key (if p r then f r else r) = key r := by
    intro r
    split
    · exact hf r
    · rfl
  simp only [find?, update, List.find?_map, Function.comp_def, hkey]

theorem find?_update_key [DecidableEq κ] {k j : κ} (hp : ∀ r, p r = true ↔ key r = k) :
    (t.update p f hf).find? j = if j = k then (t.find? k).map f else t.find? j := by
  rw [find?_update]
  by_cases hj : j = k
  · subst hj
    rw [if_pos rfl]
    refine Option.map_congr fun r hr => ?_
    rw [if_pos ((hp r).mpr (key_of_find?_eq_some hr))]
  · rw [if_neg hj]
    cases hfind : t.find? j with
    | none => rfl
    | some r =>
        have hr : ¬ p r = true := by
          rw [hp, key_of_find?_eq_some hfind]
          exact hj
        rw [Option.map_some, if_neg hr]

/-- An upsert assigns to the row of its key, or else inserts its own. -/
theorem find?_upsert [DecidableEq κ] {k : κ} : (t.upsert r f hf).find? k =
    if k = key r then some (((t.find? k).map f).getD r) else t.find? k := by
  unfold upsert
  split
  · rename_i u hinsert
    rw [find?_of_insert? hinsert]
    by_cases hk : k = key r
    · simp [hk, find?_eq_none_of_insert? hinsert]
    · simp [hk]
  · rename_i hnone
    obtain ⟨s, hs⟩ := exists_of_insert?_eq_none hnone
    rw [find?_update]
    by_cases hk : k = key r
    · simp [hk, hs, key_of_find?_eq_some hs]
    · cases hfind : t.find? k with
      | none => simp [hk]
      | some s' =>
          have hs' : key s' ≠ key r := by
            rw [key_of_find?_eq_some hfind]
            exact hk
          simp [hk, hs']

/-- A `where` clause that fixes the key matches at most one row. -/
theorem rowcount_le_one {k : κ} (hp : ∀ r, p r = true → key r = k) : t.rowcount p ≤ 1 := by
  obtain ⟨rows, hn⟩ := t
  simp only [rowcount]
  induction rows with
  | nil => simp
  | cons r rows ih =>
      simp only [List.map_cons, List.nodup_cons] at hn
      rw [List.countP_cons]
      by_cases hr : p r = true
      · have hz : rows.countP p = 0 := by
          rw [List.countP_eq_zero]
          intro s hs hps
          apply hn.1
          rw [hp r hr, ← hp s hps]
          exact List.mem_map_of_mem hs
        simp [hr, hz]
      · simpa [hr] using ih hn.2

/-- A `where` clause that matches twice matches a row under another key than a given one. -/
theorem exists_ne_of_one_lt_rowcount [DecidableEq κ] (h : 1 < t.rowcount p) (k : κ) :
    ∃ r ∈ t, p r = true ∧ key r ≠ k := by
  by_contra hnone
  push Not at hnone
  have hsame : t.rowcount p = t.rowcount fun r => p r && decide (key r = k) := by
    apply List.countP_congr
    intro r hr
    simp only [Bool.and_eq_true, decide_eq_true_eq, iff_self_and]
    exact hnone r hr
  have hle : t.rowcount (fun r => p r && decide (key r = k)) ≤ 1 := by
    apply rowcount_le_one (k := k)
    intro r hp
    simp only [Bool.and_eq_true, decide_eq_true_eq] at hp
    exact hp.2
  omega

end Update

end Table

/-- A table under `integer primary key autoincrement`: keys are never handed out twice. -/
structure AutoTable (key : α → ℕ) where
  table : Table key
  lastKey : ℕ
  key_le : ∀ r ∈ table, key r ≤ lastKey

namespace AutoTable

variable {key : α → ℕ}

instance : Membership α (AutoTable key) := ⟨fun t r => r ∈ t.table⟩

theorem mem_def {t : AutoTable key} : r ∈ t ↔ r ∈ t.table := Iff.rfl

instance [DecidableEq α] (r : α) (t : AutoTable key) : Decidable (r ∈ t) :=
  inferInstanceAs (Decidable (r ∈ t.table.rows))

def empty : AutoTable key := ⟨.empty, 0, by simp⟩

@[simp] theorem not_mem_empty (r : α) : ¬ r ∈ (empty : AutoTable key) := Table.not_mem_empty r

theorem eq_of_key_eq {t : AutoTable key} {r s : α} (hr : r ∈ t) (hs : s ∈ t)
    (h : key r = key s) : r = s :=
  Table.eq_of_key_eq hr hs h

def find? (t : AutoTable key) (k : ℕ) : Option α := t.table.find? k

theorem find?_eq_some_iff {t : AutoTable key} {k : ℕ} :
    t.find? k = some r ↔ r ∈ t ∧ key r = k :=
  Table.find?_eq_some_iff

/-- Insert the row that `mk` builds around the next key. -/
def insert (t : AutoTable key) (mk : ℕ → α) (h : ∀ n, key (mk n) = n) : AutoTable key where
  table := t.table.insert (mk (t.lastKey + 1)) (by
    intro s hs
    have := t.key_le s hs
    rw [h]
    omega)
  lastKey := t.lastKey + 1
  key_le := by
    intro r hr
    rcases Table.mem_insert.mp hr with hr | rfl
    · exact Nat.le_succ_of_le (t.key_le r hr)
    · exact Nat.le_of_eq (h _)

def update (t : AutoTable key) (p : α → Bool) (f : α → α) (hf : ∀ r, key (f r) = key r) :
    AutoTable key where
  table := t.table.update p f hf
  lastKey := t.lastKey
  key_le := by
    intro r hr
    obtain ⟨s, hs, rfl⟩ := Table.mem_update.mp hr
    have := t.key_le s hs
    split
    · rwa [hf]
    · exact this

def delete (t : AutoTable key) (p : α → Bool) : AutoTable key where
  table := t.table.delete p
  lastKey := t.lastKey
  key_le r hr := t.key_le r (Table.mem_delete.mp hr).1

variable {t : AutoTable key} {p : α → Bool} {f : α → α} {hf : ∀ r, key (f r) = key r}

@[simp] theorem mem_delete {s : α} : s ∈ t.delete p ↔ s ∈ t ∧ p s = false := Table.mem_delete

theorem mem_insert {mk : ℕ → α} {h : ∀ n, key (mk n) = n} {s : α} :
    s ∈ t.insert mk h ↔ s ∈ t ∨ s = mk (t.lastKey + 1) := by
  simp [mem_def, insert]

theorem key_ne_next {s : α} (hs : s ∈ t) : key s ≠ t.lastKey + 1 := by
  have := t.key_le s hs
  omega

theorem mem_update {s : α} :
    s ∈ t.update p f hf ↔ ∃ r ∈ t, (if p r then f r else r) = s := by
  simp [mem_def, update, Table.mem_update]

theorem update_false : t.update (fun _ => false) f hf = t := by
  obtain ⟨table, lastKey, key_le⟩ := t
  simp [update, Table.update_false]

@[simp] theorem find?_empty (k : ℕ) : (empty : AutoTable key).find? k = none := rfl

theorem find?_update {k : ℕ} :
    (t.update p f hf).find? k = (t.find? k).map fun r => if p r then f r else r := by
  have h : (t.table.update p f hf).find? k = _ := Table.find?_update
  exact h

theorem find?_insert {mk : ℕ → α} {h : ∀ n, key (mk n) = n} {k : ℕ} :
    (t.insert mk h).find? k =
      if k = t.lastKey + 1 then some (mk (t.lastKey + 1)) else t.find? k := by
  have hnew : ∀ s ∈ t.table, key s ≠ key (mk (t.lastKey + 1)) := by
    intro s hs
    rw [h]
    exact key_ne_next hs
  have hinsert : t.table.insert? (mk (t.lastKey + 1)) = some (t.insert mk h).table :=
    Table.insert?_eq_some_iff.mpr ⟨hnew, rfl⟩
  rw [find?, Table.find?_of_insert? hinsert, h]
  rfl

theorem find?_update_key {k j : ℕ} (hp : ∀ r, p r = true ↔ key r = k) :
    (t.update p f hf).find? j = if j = k then (t.find? k).map f else t.find? j := by
  have h : (t.table.update p f hf).find? j = _ := Table.find?_update_key hp
  exact h

theorem find?_delete_key {k j : ℕ} :
    (t.delete fun r => key r = k).find? j = if j = k then none else t.find? j := by
  show List.find? _ (t.table.rows.filter _) = _
  rw [List.find?_filter]
  split
  · rename_i hj
    subst hj
    exact List.find?_eq_none.mpr (by simp)
  · rename_i hj
    refine congrArg (List.find? · t.table.rows) ?_
    funext r
    by_cases hr : key r = j
    · simp [hr, hj]
    · simp [hr]

theorem find?_next : t.find? (t.lastKey + 1) = none := by
  cases hfind : t.find? (t.lastKey + 1) with
  | none => rfl
  | some s =>
      obtain ⟨hs, hkey⟩ := find?_eq_some_iff.mp hfind
      exact absurd hkey (key_ne_next hs)

end AutoTable

end WaitLocalAgent.Foundation
