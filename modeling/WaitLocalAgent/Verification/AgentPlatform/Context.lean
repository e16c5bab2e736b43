import WaitLocalAgent.Verification.AgentPlatform.Memory

/-! # Precedence of memories

What is selected of the fetched records is the best of them. That it is the best of all that are
eligible depends on the records behind the first two hundred, which are fetched by another order. -/

namespace WaitLocalAgent.AgentMemory

open Foundation AgentPlatform

variable {lib : Library} {limit : ℤ} {eligible records selected : List Memory}

def ContextMemory.rank (e : ContextMemory) : ℕ ×ₗ ℕ ×ₗ String :=
  AgentMemory.rank e.scopeType e.pinned e.updatedAt

/-- A context of the best records: distinct keys within the limit, each with a record that no
eligible record of its key outranks, and if the limit is reached no key left out with a record that
outranks one of them. -/
structure FollowsPrecedence (lib : Library) (limit : ℤ) (eligible : List Memory)
    (context : List ContextMemory) : Prop where
  distinct : (context.map ContextMemory.key).Nodup
  bounded : context.length ≤ limit
  maximal : ∀ e ∈ context, (∃ r ∈ eligible, e = r.context lib) ∧
    ∀ q ∈ eligible, q.slot.key = e.key → q.rank ≤ e.rank
  complete : context.length = limit → ∀ q ∈ eligible,
    q.slot.key ∉ context.map ContextMemory.key → ∀ e ∈ context, q.rank ≤ e.rank

theorem mem_sortRecords {r : Memory} : r ∈ sortRecords records ↔ r ∈ records :=
  (List.mergeSort_perm _ _).mem_iff

theorem pairwise_sortRecords (records : List Memory) :
    (sortRecords records).Pairwise fun a b => b.rank ≤ a.rank := by
  have hsorted : (sortRecords records).Pairwise fun a b => decide (b.rank ≤ a.rank) = true :=
    List.pairwise_mergeSort
      (fun a b c hab hbc => by
        simp only [decide_eq_true_eq] at hab hbc ⊢
        exact hbc.trans hab)
      (fun a b => by simpa using le_total b.rank a.rank) records
  simpa using hsorted

/-- The precedence of a context is that of the records that it was made from. -/
theorem followsPrecedence_iff (hlimit : 0 ≤ limit) (hsub : ∀ r ∈ selected, r ∈ eligible) :
    FollowsPrecedence lib limit eligible (selected.map (Memory.context lib)) ↔
      BestPerKey (fun r => r.slot.key) Memory.rank limit.toNat eligible selected := by
  have hkeys : (selected.map (Memory.context lib)).map ContextMemory.key =
      selected.map fun r => r.slot.key := by
    rw [List.map_map]
    rfl
  have hlength : ∀ n : ℕ, (n : ℤ) = limit ↔ n = limit.toNat := by omega
  constructor
  · rintro ⟨hdistinct, hbounded, hmaximal, hcomplete⟩
    rw [List.length_map] at hbounded hcomplete
    rw [hkeys] at hdistinct hcomplete
    refine ⟨hdistinct, by omega, fun r hr => ⟨hsub r hr, ?_⟩, fun hfull q hq hleft r hr => ?_⟩
    · exact (hmaximal _ (List.mem_map_of_mem hr)).2
    · exact hcomplete ((hlength _).mpr hfull) q hq hleft _ (List.mem_map_of_mem hr)
  · rintro ⟨hdistinct, hbounded, hmaximal, hcomplete⟩
    refine ⟨hkeys ▸ hdistinct, by rw [List.length_map]; omega, ?_, ?_⟩
    · intro e he
      obtain ⟨r, hr, rfl⟩ := List.mem_map.mp he
      exact ⟨⟨r, hsub r hr, rfl⟩, (hmaximal r hr).2⟩
    · intro hfull q hq hleft e he
      obtain ⟨r, hr, rfl⟩ := List.mem_map.mp he
      rw [List.length_map, hlength] at hfull
      exact hcomplete hfull q hq (hkeys ▸ hleft) r hr

/-- The selection from the fetched records follows the precedence if and only if every record that
is not fetched is covered. -/
theorem selection_follows_iff (order : FetchOrder) (hlimit : 1 ≤ limit) :
    FollowsPrecedence lib limit eligible ((firstPerKey (fun r => r.slot.key) limit.toNat []
        (sortRecords (order.fetch eligible))).map (Memory.context lib)) ↔
      ∀ d ∈ (order.sort eligible).drop fetchLimit,
        Covered (fun r => r.slot.key) Memory.rank limit.toNat (order.fetch eligible) d := by
  have hsame : ∀ r, r ∈ order.fetch eligible ↔ r ∈ sortRecords (order.fetch eligible) :=
    fun r => mem_sortRecords.symm
  obtain ⟨hbest, hfill⟩ :
      BestPerKey (fun r : Memory => r.slot.key) Memory.rank limit.toNat _ _ ∧ Fills _ _ _ _ :=
    bestPerKey_firstPerKey (pairwise_sortRecords (order.fetch eligible))
      (by omega : 0 < limit.toNat)
  have hkept := hbest.of_mem_iff hsame
  have hfillKept : Fills (fun r : Memory => r.slot.key) limit.toNat (order.fetch eligible) _ :=
    fun q hq => hfill q ((hsame q).mp hq)
  have hsplit : ∀ r, r ∈ eligible ↔
      r ∈ order.fetch eligible ++ (order.sort eligible).drop fetchLimit := by
    intro r
    rw [FetchOrder.fetch, List.take_append_drop, (order.perm eligible).mem_iff]
  rw [followsPrecedence_iff (by omega) fun r hr => (hsplit r).mpr
    (List.mem_append_left _ (hkept.maximal r hr).1), ← hkept.append_iff hfillKept]
  exact ⟨fun h => h.of_mem_iff fun r => (hsplit r).symm, fun h => h.of_mem_iff hsplit⟩

theorem resolveContext_of_resolved (order : FetchOrder) (s : Memories) {request : ContextRequest}
    (now : String) {clientId : String} {scopes : List (MemoryScope × String)}
    (h : request.resolved lib = .ok (clientId, scopes)) :
    resolveContext lib order s request now =
      .ok ((firstPerKey (fun r => r.slot.key) request.limit.toNat []
        (sortRecords (order.fetch (s.eligible clientId now scopes)))).map
          (Memory.context lib)) := by
  rw [resolveContext, h, ok_bind]
  rfl

/-- `resolve_context` answers for every client and all ids that pass their checks, and its answer
follows the precedence if and only if every eligible record behind the first two hundred is
covered. -/
theorem resolveContext_follows_iff (order : FetchOrder) (s : Memories) {request : ContextRequest}
    (now : String) {clientId : String} {scopes : List (MemoryScope × String)}
    (h : request.resolved lib = .ok (clientId, scopes)) :
    ∃ context, resolveContext lib order s request now = .ok context ∧
      (FollowsPrecedence lib request.limit (s.eligible clientId now scopes) context ↔
        ∀ d ∈ (order.sort (s.eligible clientId now scopes)).drop fetchLimit,
          Covered (fun r => r.slot.key) Memory.rank request.limit.toNat
            (order.fetch (s.eligible clientId now scopes)) d) := by
  have hlimit : 1 ≤ request.limit := by
    simp only [ContextRequest.resolved, bind_eq_ok, raiseIf_eq_ok] at h
    obtain ⟨_, -, _, hbounds, -⟩ := h
    exact (not_not.mp hbounds).1
  exact ⟨_, resolveContext_of_resolved order s now h, selection_follows_iff order hlimit⟩

/-- Up to two hundred eligible records are all fetched. -/
theorem drop_eq_nil (order : FetchOrder) (h : eligible.length ≤ fetchLimit) :
    (order.sort eligible).drop fetchLimit = [] := by
  rw [List.drop_eq_nil_iff, (order.perm eligible).length_eq]
  exact h

section Example

def noteMemory (id key : String) (scopeType : MemoryScope) (scopeId : String) (pinned : Bool) :
    Memory where
  id := id
  slot := ⟨"shire", scopeType, scopeId, key⟩
  valueJson := "\"second floor\""
  summary := ""
  provenance := "ticket"
  pinned := pinned
  status := .active
  version := 1
  supersedesId := none
  expiresAt := none
  createdBy := "api"
  createdAt := "2026-07-01T09:00:00+00:00"
  updatedAt := "2026-07-01T09:00:00+00:00"

def noteId (i : ℕ) : String := "m" ++ i.repr

def clientNote (i : ℕ) : Memory := noteMemory (noteId i) (noteId i) .client "shire" true

def ticketNote : Memory := noteMemory "t" (noteId 0) .ticket "4711" false

theorem noteId_injective : Function.Injective noteId := fun _ _ h =>
  Nat.repr_injective (String.append_right_inj _ |>.mp h)

theorem noteId_ne (i : ℕ) : noteId i ≠ "t" := by
  intro h
  have hchars := congrArg String.toList h
  rw [noteId, String.toList_append] at hchars
  exact absurd (List.cons.inj hchars).1 (by decide)

def noteRows (n : ℕ) : List Memory := (List.range n).map clientNote ++ [ticketNote]

theorem slot_injective {n : ℕ} : ∀ r ∈ noteRows n, ∀ q ∈ noteRows n, r.slot = q.slot → r = q := by
  intro r hr q hq hslot
  rcases List.mem_append.mp hr with hr | hr <;> rcases List.mem_append.mp hq with hq | hq
  · obtain ⟨i, -, rfl⟩ := List.mem_map.mp hr
    obtain ⟨j, -, rfl⟩ := List.mem_map.mp hq
    rw [noteId_injective (congrArg Slot.key hslot : noteId i = noteId j)]
  · obtain ⟨i, -, rfl⟩ := List.mem_map.mp hr
    obtain rfl := List.mem_singleton.mp hq
    cases congrArg Slot.scopeType hslot
  · obtain ⟨j, -, rfl⟩ := List.mem_map.mp hq
    obtain rfl := List.mem_singleton.mp hr
    cases congrArg Slot.scopeType hslot
  · rw [List.mem_singleton.mp hr, List.mem_singleton.mp hq]

/-- Pinned memories of the client, and one of the ticket that is not pinned. -/
def noteMemories (n : ℕ) : Memories where
  rows := ⟨noteRows n, by
    rw [noteRows, List.map_append, List.map_map, List.nodup_append']
    refine ⟨List.nodup_range.map noteId_injective, List.nodup_singleton _, ?_⟩
    intro id hid hticket
    obtain ⟨i, -, rfl⟩ := List.mem_map.mp hid
    exact noteId_ne i (List.mem_singleton.mp hticket)⟩
  unique r hr q hq _ _ := slot_injective r hr q hq

def noteRequest : ContextRequest := { clientId := "shire", ticketId := some "4711" }

def noteScopes : List (MemoryScope × String) := [(.client, "shire"), (.ticket, "4711")]

theorem resolved_noteRequest :
    noteRequest.resolved exampleLibrary = .ok ("shire", noteScopes) := by
  decide

theorem eligible_noteMemories (n : ℕ) (now : String) :
    (noteMemories n).eligible "shire" now noteScopes = noteRows n := by
  refine List.filter_eq_self.mpr fun r hr => ?_
  rcases List.mem_append.mp hr with hr | hr
  · obtain ⟨i, -, rfl⟩ := List.mem_map.mp hr
    simp [clientNote, noteMemory, noteScopes]
  · obtain rfl := List.mem_singleton.mp hr
    simp [ticketNote, noteMemory, noteScopes]

/-- Of one memory of the client and one of the ticket, the best is selected. -/
theorem resolveContext_follows_note :
    ∃ context, resolveContext exampleLibrary .stable (noteMemories 1) noteRequest "2026-07-02" =
        .ok context ∧
      FollowsPrecedence exampleLibrary 20 (noteRows 1) context := by
  obtain ⟨context, hcontext, hiff⟩ :=
    resolveContext_follows_iff .stable (noteMemories 1) "2026-07-02" resolved_noteRequest
  rw [eligible_noteMemories] at hiff
  refine ⟨context, hcontext, hiff.mpr ?_⟩
  rw [drop_eq_nil _ (by decide)]
  exact fun d hd => absurd hd List.not_mem_nil

theorem sort_noteRows (n : ℕ) : FetchOrder.stable.sort (noteRows n) = noteRows n := by
  refine List.mergeSort_of_pairwise (List.pairwise_append.mpr ⟨?_, List.pairwise_singleton _ _, ?_⟩)
  · rw [List.pairwise_map]
    exact List.pairwise_of_forall fun i j => decide_eq_true (le_refl _)
  · intro r hr q hq
    obtain ⟨i, -, rfl⟩ := List.mem_map.mp hr
    obtain rfl := List.mem_singleton.mp hq
    exact decide_eq_true (Prod.Lex.toLex_le_toLex.mpr (.inl Nat.zero_lt_one))

/-- A memory of the ticket is behind two hundred pinned ones of the client, one of which has its
key. -/
theorem not_resolveContext_follows :
    ¬ ∀ (lib : Library) (order : FetchOrder) (s : Memories) (request : ContextRequest)
      (now clientId : String) (scopes : List (MemoryScope × String))
      (context : List ContextMemory), request.resolved lib = .ok (clientId, scopes) →
      resolveContext lib order s request now = .ok context →
      FollowsPrecedence lib request.limit (s.eligible clientId now scopes) context := by
  intro hall
  have hfollows := hall exampleLibrary .stable (noteMemories 200) noteRequest "2026-07-02" "shire"
    noteScopes _ resolved_noteRequest (resolveContext_of_resolved .stable _ _ resolved_noteRequest)
  rw [eligible_noteMemories, selection_follows_iff _ (by decide)] at hfollows
  have hlength : ((List.range 200).map clientNote).length = fetchLimit := by simp [fetchLimit]
  have hfetch : FetchOrder.stable.fetch (noteRows 200) = (List.range 200).map clientNote := by
    rw [FetchOrder.fetch, sort_noteRows, noteRows, List.take_left' hlength]
  rw [sort_noteRows, hfetch] at hfollows
  have hbelow : ∀ r ∈ (List.range 200).map clientNote, ¬ ticketNote.rank ≤ r.rank := by
    intro r hr
    obtain ⟨i, -, rfl⟩ := List.mem_map.mp hr
    exact not_le.mpr (Prod.Lex.toLex_lt_toLex.mpr (.inl (by decide : 0 < 3)))
  rcases hfollows ticketNote (by rw [noteRows, List.drop_left' hlength]; simp) with
    ⟨r, hr, -, hrank⟩ | hcard | ⟨hnone, -⟩
  · exact hbelow r hr hrank
  · rw [List.filter_eq_nil_iff.mpr fun r hr => by simpa using hbelow r hr] at hcard
    exact absurd hcard (by decide)
  · exact hnone (clientNote 0) (List.mem_map_of_mem (by simp)) rfl

end Example

end WaitLocalAgent.AgentMemory
