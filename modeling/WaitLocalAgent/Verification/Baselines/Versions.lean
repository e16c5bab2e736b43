import WaitLocalAgent.Model.ClientBaselines

/-! # The versions of a baseline -/

namespace WaitLocalAgent.Baselines

open Foundation Redaction

variable {w : WordClass} {limit : LimitOne} {s s' : BaselineStore} {clientId : ClientId}

theorem insertRow_eq_ok {row : ClientBaseline} (h : s.insertRow row = .ok s') :
    s'.clients = s.clients ∧ ∀ clientId, s'.rowsOf clientId =
      s.rowsOf clientId ++ if row.clientId = clientId then [row] else [] := by
  rw [BaselineStore.insertRow] at h
  split at h
  · cases h
  · split at h
    · cases h
    · next table hinsert =>
        cases h
        obtain ⟨hnew, rfl⟩ := Table.insert?_eq_some_iff.mp hinsert
        refine ⟨rfl, fun clientId => ?_⟩
        simp only [BaselineStore.rowsOf, Table.rows_insert, List.filter_append]
        by_cases hclient : row.clientId = clientId <;> simp [hclient]

theorem rowsOf_setAccepted (p : ClientBaseline → Bool) (accepted : Bool) :
    (s.setAccepted p accepted).rowsOf clientId =
      (s.rowsOf clientId).map fun row => if p row then { row with accepted } else row := by
  simp only [BaselineStore.setAccepted, BaselineStore.rowsOf, Table.update, List.filter_map]
  congr 2
  ext row
  simp only [Function.comp_apply]
  split <;> rfl

theorem mem_rowsOf {row : ClientBaseline} :
    row ∈ s.rowsOf clientId ↔ row ∈ s.clientBaselines ∧ row.clientId = clientId := by
  simp [BaselineStore.rowsOf, Table.mem_def]

theorem rowsOf_setAccepted_of_ne {p : ClientBaseline → Bool} {accepted : Bool}
    (hp : ∀ row, p row = true → row.clientId ≠ clientId) :
    (s.setAccepted p accepted).rowsOf clientId = s.rowsOf clientId := by
  rw [rowsOf_setAccepted]
  conv_rhs => rw [← List.map_id (s.rowsOf clientId)]
  refine List.map_congr_left fun row hrow => ?_
  exact if_neg fun h => hp row h (mem_rowsOf.mp hrow).2

theorem getClientBaseline_eq_some {scope : ScopeArgument} {version : ℤ} {row : ClientBaseline}
    (h : s.getClientBaseline limit scope version = .ok (some row)) :
    row ∈ s.clientBaselines ∧ row.version = version := by
  rw [BaselineStore.getClientBaseline] at h
  split at h
  · cases h
  · simp only [bind_eq_ok, pure_eq_ok] at h
    obtain ⟨admits, -, -, -, hpick⟩ := h
    obtain ⟨hrow, hmatches⟩ := List.mem_filter.mp (limit.mem hpick)
    simp only [Bool.and_eq_true, decide_eq_true_eq] at hmatches
    exact ⟨hrow, hmatches.1⟩

/-- The versions of a client are 1 to n, and one of them is accepted. -/
structure Numbered (rows : List ClientBaseline) : Prop where
  versions : rows.map ClientBaseline.version = List.range' 1 rows.length
  accepted : rows ≠ [] → rows.countP ClientBaseline.accepted = 1

theorem foldl_max_range' (n : ℕ) : (List.range' 1 n).foldl max 0 = n := by
  induction n with
  | zero => rfl
  | succ n ih =>
      rw [List.range'_concat, List.foldl_append, ih]
      simp
      omega

/-- The first baseline of a client is accepted, and the next ones are not. -/
theorem Numbered.append {rows : List ClientBaseline} (h : Numbered rows) {row : ClientBaseline}
    (hversion : row.version = (rows.map ClientBaseline.version).foldl max 0 + 1)
    (haccepted : row.accepted = !rows.any ClientBaseline.accepted) : Numbered (rows ++ [row]) where
  versions := by
    rw [h.versions, foldl_max_range'] at hversion
    rw [List.map_append, h.versions, List.length_append, List.length_singleton, List.range'_concat]
    simp [hversion, Nat.add_comm]
  accepted := fun _ => by
    rw [List.countP_append, List.countP_singleton, haccepted]
    cases rows with
    | nil => rfl
    | cons first rows =>
        have hone := h.accepted (List.cons_ne_nil first rows)
        have hany : (first :: rows).any ClientBaseline.accepted = true := by
          obtain ⟨row, hrow, hr⟩ := List.countP_pos_iff.mp (by omega :
            0 < (first :: rows).countP ClientBaseline.accepted)
          exact List.any_eq_true.mpr ⟨row, hrow, hr⟩
        simp [hone, hany]

theorem Numbered.accept {rows : List ClientBaseline} (h : Numbered rows) {version : ℕ}
    (hmem : version ∈ rows.map ClientBaseline.version) :
    Numbered (rows.map fun row => { row with accepted := decide (row.version = version) }) where
  versions := by simpa [Function.comp_def] using h.versions
  accepted := fun _ => by
    have hnodup : (rows.map ClientBaseline.version).Nodup := by
      rw [h.versions]
      exact List.nodup_range'
    have hcount := List.count_eq_one_of_mem hnodup hmem
    rw [List.count, List.countP_map] at hcount
    rw [List.countP_map, ← hcount]
    refine List.countP_congr fun row _ => ?_
    simp

/-- A call changes the rows of one client at most, and keeps them numbered. -/
def Renumbers (s s' : BaselineStore) : Prop :=
  ∃ clientId, (∀ other ≠ clientId, s'.rowsOf other = s.rowsOf other) ∧
    (Numbered (s.rowsOf clientId) → Numbered (s'.rowsOf clientId))

theorem Renumbers.refl (s : BaselineStore) : Renumbers s s :=
  ⟨quarantineClientId, fun _ _ => rfl, id⟩

theorem renumbers_create {new : NewBaseline} {baseline : Option ClientBaseline}
    (h : s.createClientBaseline w limit new = .ok (s', baseline)) : Renumbers s s' := by
  rw [BaselineStore.createClientBaseline] at h
  split at h
  · cases h
  · next clientId _ =>
      simp only [bind_eq_ok, pure_eq_ok, Prod.mk.injEq] at h
      obtain ⟨-, -, -, -, inserted, hinsert, -, -, rfl, -⟩ := h
      obtain ⟨-, hrows⟩ := insertRow_eq_ok hinsert
      refine ⟨clientId, fun other hne => ?_, fun hnumbered => ?_⟩
      · simp [hrows, hne.symm]
      · rw [hrows, if_pos rfl]
        exact hnumbered.append rfl rfl

theorem renumbers_accept {scope : ScopeArgument} {version : ℤ} {baseline : Option ClientBaseline}
    (h : s.acceptClientBaseline limit scope version = .ok (s', baseline)) : Renumbers s s' := by
  rw [BaselineStore.acceptClientBaseline, bind_eq_ok] at h
  obtain ⟨target, htarget, h⟩ := h
  cases target with
  | none =>
      cases h
      exact .refl s
  | some target =>
      obtain ⟨hrow, hversion⟩ := getClientBaseline_eq_some htarget
      simp only [bind_eq_ok, pure_eq_ok, Prod.mk.injEq] at h
      obtain ⟨-, -, -, -, rfl, -⟩ := h
      refine ⟨target.clientId, fun other hne => ?_, fun hnumbered => ?_⟩
      · rw [rowsOf_setAccepted_of_ne fun row hp hclient => hne ?_,
          rowsOf_setAccepted_of_ne fun row hp hclient => hne ?_]
        · simpa [hclient] using hp
        · rw [← hclient]
          simp only [Bool.and_eq_true, decide_eq_true_eq] at hp
          exact hp.1
      · have hmem : target.version ∈ (s.rowsOf target.clientId).map ClientBaseline.version :=
          List.mem_map_of_mem (mem_rowsOf.mpr ⟨hrow, rfl⟩)
        have haccept := hnumbered.accept hmem
        rw [rowsOf_setAccepted, rowsOf_setAccepted, List.map_map]
        refine (congrArg Numbered (List.map_congr_left fun row hmem => ?_)).mpr haccept
        have hclient := (mem_rowsOf.mp hmem).2
        by_cases hsame : row.version = target.version
        · simp [hclient, hsame, hversion]
        · simp [hclient, hsame, ← hversion]

theorem renumbers_perform {call : BaselineCall} {baseline : Option ClientBaseline}
    (h : s.perform w call = .ok (s', baseline)) : Renumbers s s' := by
  cases call with
  | create limit new => exact renumbers_create h
  | accept limit scope version => exact renumbers_accept h

/-- The step lemma: failed calls change nothing. -/
theorem renumbers_step (clients : List ClientId) (s : BaselineStore) (call : BaselineCall) :
    Renumbers s ((baselineMachine w clients).step s call) := by
  refine committed_relation (.refl s) fun s' hs' => ?_
  obtain ⟨⟨next, baseline⟩, hperform, rfl⟩ := map_eq_ok.mp hs'
  exact renumbers_perform hperform

theorem Renumbers.numbered (h : Renumbers s s') (hs : ∀ clientId, Numbered (s.rowsOf clientId))
    (clientId : ClientId) : Numbered (s'.rowsOf clientId) := by
  obtain ⟨changed, hsame, hnumbered⟩ := h
  by_cases hclient : clientId = changed
  · rw [hclient]
    exact hnumbered (hs changed)
  · rw [hsame clientId hclient]
    exact hs clientId

/-- After any calls, the versions of every client are 1 to n with one accepted, and the next call
changes the rows of one client at most. -/
theorem versions_numbered (w : WordClass) (clients : List ClientId) (calls : List BaselineCall) :
    (∀ clientId, Numbered (((baselineMachine w clients).run calls).rowsOf clientId)) ∧
      ∀ call, ∃ clientId, ∀ other ≠ clientId,
        ((baselineMachine w clients).run (calls ++ [call])).rowsOf other =
          ((baselineMachine w clients).run calls).rowsOf other := by
  refine ⟨Machine.run_invariant
    (I := fun s : BaselineStore => ∀ clientId, Numbered (s.rowsOf clientId)) ?_ ?_ calls,
    fun call => ?_⟩
  · exact fun clientId => ⟨rfl, fun h => absurd rfl h⟩
  · exact fun s call hs => (renumbers_step clients s call).numbered hs
  · obtain ⟨clientId, hsame, -⟩ :=
      @renumbers_step w clients ((baselineMachine w clients).run calls) call
    refine ⟨clientId, fun other hne => ?_⟩
    rw [Machine.run_concat]
    exact hsame other hne

end WaitLocalAgent.Baselines
