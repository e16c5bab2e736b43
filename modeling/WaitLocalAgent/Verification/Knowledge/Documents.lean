import WaitLocalAgent.Model.Knowledge
import WaitLocalAgent.Foundation.Blanks

/-! # What an upsert does to documents and chunks

A document is found by its path alone. The last of the writes with its path rewrites its content, a
client id that is given rewrites its client, and its authority stays. -/

namespace WaitLocalAgent.Knowledge

open Foundation

def UniquePaths (s : KnowledgeStore) : Prop :=
  ∀ d ∈ s.documents, ∀ e ∈ s.documents, d.path = e.path → d = e

def lastWrite (writes : List KnowledgeDocumentWrite) (path : String) :
    Option KnowledgeDocumentWrite :=
  writes.reverse.find? fun w => w.path == path

/-- What the writes make of a document. -/
structure Rewritten (clientId : Option ClientId) (writes : List KnowledgeDocumentWrite)
    (d d' : KnowledgeDocument) : Prop where
  id : d'.id = d.id
  path : d'.path = d.path
  authority : d'.authority = d.authority
  supersededBy : d'.supersededBy = d.supersededBy
  checksum : d'.checksum = (lastWrite writes d.path).elim d.checksum KnowledgeDocumentWrite.checksum
  clientId : d'.clientId = (lastWrite writes d.path).elim d.clientId fun _ => clientId.or d.clientId

/-- A new document. -/
structure Untrusted (s : KnowledgeStore) (d : KnowledgeDocument) : Prop where
  authority : d.authority = .untrusted
  supersededBy : d.supersededBy = none
  id : s.documents.lastKey < d.id

/-- What the writes make of a store. -/
structure Rewrites (clientId : Option ClientId) (writes : List KnowledgeDocumentWrite)
    (s s' : KnowledgeStore) : Prop where
  kept : ∀ d ∈ s.documents, ∃ d' ∈ s'.documents, Rewritten clientId writes d d'
  source : ∀ d' ∈ s'.documents,
    (∃ d ∈ s.documents, Rewritten clientId writes d d') ∨ Untrusted s d'
  lastKey : s.documents.lastKey ≤ s'.documents.lastKey

variable {s s' t : KnowledgeStore} {clientId : Option ClientId} {now : String}
  {w : KnowledgeDocumentWrite} {ws : List KnowledgeDocumentWrite}
  {d d' d₁ : KnowledgeDocument} {path : String}

theorem findPath_eq_some (h : s.findPath path = some d) : d ∈ s.documents ∧ d.path = path :=
  ⟨List.mem_of_find?_eq_some h, by simpa using List.find?_some h⟩

theorem findPath_eq_none (h : s.findPath path = none) (hd : d ∈ s.documents) : d.path ≠ path := by
  simpa using List.find?_eq_none.mp h d hd

@[simp] theorem lastWrite_nil : lastWrite [] path = none := rfl

theorem lastWrite_cons :
    lastWrite (w :: ws) path = (lastWrite ws path).or (if w.path = path then some w else none) := by
  unfold lastWrite
  rw [List.reverse_cons, List.find?_append]
  by_cases h : w.path = path <;> simp [h]

theorem lastWrite_eq_none (h : ∀ w ∈ ws, w.path ≠ path) : lastWrite ws path = none := by
  simpa [lastWrite] using h

theorem Rewritten.trans (h : Rewritten clientId [w] d d₁) (h' : Rewritten clientId ws d₁ d') :
    Rewritten clientId (w :: ws) d d' := by
  have hpath := h.path
  refine ⟨h'.id.trans h.id, h'.path.trans hpath, h'.authority.trans h.authority,
    h'.supersededBy.trans h.supersededBy, ?_, ?_⟩
  · rw [h'.checksum, h.checksum, hpath]
    simp only [lastWrite_cons, lastWrite_nil, Option.none_or]
    cases lastWrite ws d.path <;> simp
  · rw [h'.clientId, h.clientId, hpath]
    simp only [lastWrite_cons, lastWrite_nil, Option.none_or]
    cases lastWrite ws d.path with
    | none => simp
    | some v => by_cases hw : w.path = d.path <;> simp [hw]; cases clientId <;> rfl

theorem Untrusted.rewritten (h : Untrusted s d) (h' : Rewritten clientId ws d d') :
    Untrusted s d' :=
  ⟨h'.authority.trans h.authority, h'.supersededBy.trans h.supersededBy, by rw [h'.id]; exact h.id⟩

theorem Rewrites.refl (s : KnowledgeStore) : Rewrites clientId [] s s := by
  have hsame : ∀ d, Rewritten clientId [] d d := fun d => ⟨rfl, rfl, rfl, rfl, rfl, rfl⟩
  exact ⟨fun d hd => ⟨d, hd, hsame d⟩, fun d hd => .inl ⟨d, hd, hsame d⟩, le_rfl⟩

theorem Rewrites.trans (h : Rewrites clientId [w] s t) (h' : Rewrites clientId ws t s') :
    Rewrites clientId (w :: ws) s s' := by
  refine ⟨?_, ?_, h.lastKey.trans h'.lastKey⟩
  · intro d hd
    obtain ⟨d₁, hd₁, hfirst⟩ := h.kept d hd
    obtain ⟨d', hd', hrest⟩ := h'.kept d₁ hd₁
    exact ⟨d', hd', hfirst.trans hrest⟩
  · intro d' hd'
    rcases h'.source d' hd' with ⟨d₁, hd₁, hrest⟩ | hnew
    · rcases h.source d₁ hd₁ with ⟨d, hd, hfirst⟩ | hnew
      · exact .inl ⟨d, hd, hfirst.trans hrest⟩
      · exact .inr (hnew.rewritten hrest)
    · exact .inr ⟨hnew.authority, hnew.supersededBy, lt_of_le_of_lt h.lastKey hnew.id⟩

theorem rewritten_of_path (h : d.path = w.path) :
    Rewritten clientId [w] d (w.overwrite clientId now d) :=
  ⟨rfl, rfl, rfl, rfl, by simp [lastWrite_cons, h, KnowledgeDocumentWrite.overwrite],
    by simp [lastWrite_cons, h, KnowledgeDocumentWrite.overwrite]⟩

theorem rewritten_of_path_ne (h : d.path ≠ w.path) : Rewritten clientId [w] d d :=
  ⟨rfl, rfl, rfl, rfl, by simp [lastWrite_cons, h.symm], by simp [lastWrite_cons, h.symm]⟩

theorem mem_upsertDocument (hpaths : UniquePaths s) :
    d' ∈ (upsertDocument s clientId now w).1.documents ↔
      (∃ d ∈ s.documents, d' = if d.path = w.path then w.overwrite clientId now d else d) ∨
        s.findPath w.path = none ∧ d' = w.row clientId now (s.documents.lastKey + 1) := by
  unfold upsertDocument
  cases hfind : s.findPath w.path with
  | none =>
      have hsame : ∀ d ∈ s.documents,
          (if d.path = w.path then w.overwrite clientId now d else d) = d :=
        fun d hd => if_neg (findPath_eq_none hfind hd)
      simp only [AutoTable.mem_insert, true_and]
      refine or_congr_left ⟨fun h => ⟨d', h, (hsame d' h).symm⟩, ?_⟩
      rintro ⟨d, hd, rfl⟩
      rwa [hsame d hd]
  | some e =>
      obtain ⟨he, hpath⟩ := findPath_eq_some hfind
      have hiff : ∀ d ∈ s.documents, d.id = e.id ↔ d.path = w.path := by
        intro d hd
        constructor
        · intro hid
          rw [AutoTable.eq_of_key_eq hd he hid, hpath]
        · intro hp
          rw [hpaths d hd e he (hp.trans hpath.symm)]
      simp only [AutoTable.mem_update, reduceCtorEq, false_and, or_false, beq_iff_eq]
      constructor
      · rintro ⟨d, hd, rfl⟩
        exact ⟨d, hd, by simp only [hiff d hd]⟩
      · rintro ⟨d, hd, rfl⟩
        exact ⟨d, hd, by simp only [hiff d hd]⟩

theorem upsertDocument_uniquePaths (clientId : Option ClientId) (now : String)
    (w : KnowledgeDocumentWrite) (hpaths : UniquePaths s) :
    UniquePaths (upsertDocument s clientId now w).1 := by
  have hpath : ∀ d : KnowledgeDocument,
      (if d.path = w.path then w.overwrite clientId now d else d).path = d.path := by
    intro d
    split <;> rfl
  intro d' hd' e' he' hsame
  rcases (mem_upsertDocument hpaths).mp hd' with ⟨d, hd, rfl⟩ | ⟨hnone, rfl⟩
  · rcases (mem_upsertDocument hpaths).mp he' with ⟨e, he, rfl⟩ | ⟨hnone, rfl⟩
    · rw [hpath, hpath] at hsame
      rw [hpaths d hd e he hsame]
    · rw [hpath] at hsame
      exact absurd hsame (findPath_eq_none hnone hd)
  · rcases (mem_upsertDocument hpaths).mp he' with ⟨e, he, rfl⟩ | ⟨-, rfl⟩
    · rw [hpath] at hsame
      exact absurd hsame.symm (findPath_eq_none hnone he)
    · rfl

theorem upsertDocument_rewrites (hpaths : UniquePaths s) :
    Rewrites clientId [w] s (upsertDocument s clientId now w).1 := by
  have hrewritten : ∀ d : KnowledgeDocument, Rewritten clientId [w] d
      (if d.path = w.path then w.overwrite clientId now d else d) := by
    intro d
    split
    · exact rewritten_of_path ‹_›
    · exact rewritten_of_path_ne ‹_›
  refine ⟨?_, ?_, ?_⟩
  · intro d hd
    exact ⟨_, (mem_upsertDocument hpaths).mpr (.inl ⟨d, hd, rfl⟩), hrewritten d⟩
  · intro d' hd'
    rcases (mem_upsertDocument hpaths).mp hd' with ⟨d, hd, rfl⟩ | ⟨-, rfl⟩
    · exact .inl ⟨d, hd, hrewritten d⟩
    · exact .inr ⟨rfl, rfl, Nat.lt_succ_self _⟩
  · unfold upsertDocument
    cases s.findPath w.path with
    | none => exact Nat.le_succ _
    | some e => exact le_rfl

theorem upsertAll_rewrites (clientId : Option ClientId) (now : String) (hpaths : UniquePaths s)
    (ws : List KnowledgeDocumentWrite) :
    Rewrites clientId ws s (upsertAll clientId now ws s).1 ∧
      UniquePaths (upsertAll clientId now ws s).1 := by
  induction ws generalizing s with
  | nil => exact ⟨.refl s, hpaths⟩
  | cons w ws ih =>
      obtain ⟨hrest, hunique⟩ := ih (upsertDocument_uniquePaths clientId now w hpaths)
      exact ⟨(upsertDocument_rewrites hpaths).trans hrest, hunique⟩

end WaitLocalAgent.Knowledge

/-! ## Chunks

What a document is cut into holds the whole document but for its blanks. `Packed` is the invariant
of both loops: `current` begins with no blank, so that no cut from it is blank. -/

namespace WaitLocalAgent.Knowledge

open Foundation Foundation.Text

variable {maxChars : ℕ+} {seen current : List Char} {chunks : List (List Char)}

/-- The chunks and `current`, once what has been read is `seen`. -/
structure Packed (maxChars : ℕ+) (seen : List Char) (chunks : List (List Char))
    (current : List Char) : Prop where
  chunk : ∀ chunk ∈ chunks, chunk ≠ [] ∧ chunk.length ≤ maxChars
  begins : ∀ c, current.head? = some c → isSpace c = false
  kept : withoutBlanks (chunks.flatten ++ current) = withoutBlanks seen

/-- A text that begins with no blank has a cut that is not blank. -/
theorem trimEnds_take_ne_nil (hbegins : ∀ c, current.head? = some c → isSpace c = false)
    (h : current ≠ []) : trimEnds isSpace (current.take maxChars) ≠ [] := by
  cases current with
  | nil => exact absurd rfl h
  | cons c cs =>
      have hc : isSpace c = false := hbegins c rfl
      have hpos : (maxChars : ℕ) = (maxChars - 1 : ℕ) + 1 :=
        (Nat.succ_pred_eq_of_pos maxChars.pos).symm
      intro hnil
      have hcut := withoutBlanks_trimEnds ((c :: cs).take maxChars)
      rw [hnil, hpos, List.take_succ_cons, withoutBlanks_cons_of_not hc] at hcut
      cases hcut

theorem Packed.cut (h : Packed maxChars seen chunks current) (hne : current ≠ []) :
    Packed maxChars seen (chunks ++ [trimEnds isSpace (current.take maxChars)])
      (trimEnds isSpace (current.drop maxChars)) where
  chunk := by
    intro chunk hchunk
    rcases List.mem_append.mp hchunk with hchunk | hchunk
    · exact h.chunk chunk hchunk
    · obtain rfl := List.mem_singleton.mp hchunk
      exact ⟨trimEnds_take_ne_nil h.begins hne,
        (length_trimEnds_le isSpace _).trans (List.length_take_le _ _)⟩
  begins _ := head?_trimEnds
  kept := by
    have hsplit := congrArg withoutBlanks (List.take_append_drop maxChars current)
    rw [withoutBlanks_append] at hsplit
    rw [List.flatten_append, List.flatten_singleton, withoutBlanks_append, withoutBlanks_append,
      withoutBlanks_trimEnds, withoutBlanks_trimEnds, List.append_assoc, hsplit,
      ← withoutBlanks_append, h.kept]

/-- The inner loop leaves a `current` within the bound. -/
theorem Packed.splitLong (h : Packed maxChars seen chunks current) :
    Packed maxChars seen (splitLong maxChars chunks current).1
        (splitLong maxChars chunks current).2 ∧
      (Knowledge.splitLong maxChars chunks current).2.length ≤ maxChars := by
  fun_induction Knowledge.splitLong maxChars chunks current with
  | case1 chunks current hlong _ ih => exact ih (h.cut (by rintro rfl; simp at hlong))
  | case2 chunks current hshort => exact ⟨h, Nat.le_of_not_lt hshort⟩

theorem not_isSpace_of_mem_words {cs word : List Char} (h : word ∈ words cs) {c : Char}
    (hc : c ∈ word) : isSpace c = false := by
  have hmem : c ∈ withoutBlanks cs := by
    rw [← flatten_words]
    exact List.mem_flatten_of_mem h hc
  simpa using (List.mem_filter.mp hmem).2

/-- A normalized paragraph begins with its first word. -/
theorem head?_normalized {paragraph : List Char} {c : Char}
    (h : ([' '].intercalate (words paragraph)).head? = some c) : isSpace c = false := by
  cases hwords : words paragraph with
  | nil => simp [hwords] at h
  | cons word rest =>
      have hword : word ∈ words paragraph := by
        rw [hwords]
        exact List.mem_cons_self
      cases word with
      | nil =>
          have hfull := (List.mem_filter.mp hword).2
          cases hfull
      | cons d ds =>
          have hd : c = d := by
            cases rest <;> simp_all [List.intercalate_cons_cons]
          subst hd
          exact not_isSpace_of_mem_words hword List.mem_cons_self

theorem withoutBlanks_normalized (paragraph : List Char) :
    withoutBlanks ([' '].intercalate (words paragraph)) = withoutBlanks paragraph := by
  rw [withoutBlanks_intercalate (by decide), flatten_words, withoutBlanks_withoutBlanks]

/-- What a round of the outer loop hands to the inner one. -/
theorem Packed.addParagraph (h : Packed maxChars seen chunks current)
    (hshort : current.length ≤ maxChars) (paragraph : List Char) :
    ∃ chunks' current', addParagraph maxChars (chunks, current) paragraph =
        Knowledge.splitLong maxChars chunks' current' ∧
      Packed maxChars (seen ++ paragraph) chunks' current' := by
  have hkept : withoutBlanks (chunks.flatten ++ current) ++
      withoutBlanks ([' '].intercalate (words paragraph)) =
        withoutBlanks (seen ++ paragraph) := by
    rw [h.kept, withoutBlanks_normalized, withoutBlanks_append]
  rw [Knowledge.addParagraph]
  split
  · next hempty =>
      subst hempty
      refine ⟨_, _, rfl, h.chunk, fun _ => head?_normalized, ?_⟩
      rw [withoutBlanks_append, ← hkept, List.append_nil]
  · next hne =>
      split
      · refine ⟨_, _, rfl, h.chunk, fun c hc => h.begins c ?_, ?_⟩
        · rwa [List.append_assoc, List.head?_append_of_ne_nil _ hne] at hc
        · have hblank : withoutBlanks [Char.ofNat 10, Char.ofNat 10] = [] := by decide
          rw [← List.append_assoc, ← List.append_assoc, withoutBlanks_append,
            withoutBlanks_append, hblank, List.append_nil, hkept]
      · refine ⟨_, _, rfl, fun chunk hchunk => ?_, fun _ => head?_normalized, ?_⟩
        · rcases List.mem_append.mp hchunk with hchunk | hchunk
          · exact h.chunk chunk hchunk
          · obtain rfl := List.mem_singleton.mp hchunk
            exact ⟨hne, hshort⟩
        · rw [List.flatten_append, List.flatten_singleton, withoutBlanks_append, hkept]

theorem Packed.foldl (h : Packed maxChars seen chunks current)
    (hshort : current.length ≤ maxChars) (paragraphs : List (List Char)) :
    Packed maxChars (seen ++ paragraphs.flatten)
        (paragraphs.foldl (Knowledge.addParagraph maxChars) (chunks, current)).1
        (paragraphs.foldl (Knowledge.addParagraph maxChars) (chunks, current)).2 ∧
      (paragraphs.foldl (Knowledge.addParagraph maxChars) (chunks, current)).2.length ≤
        maxChars := by
  induction paragraphs generalizing seen chunks current with
  | nil => exact ⟨by simpa using h, hshort⟩
  | cons paragraph paragraphs ih =>
      obtain ⟨chunks', current', hround, hpacked⟩ := h.addParagraph hshort paragraph
      obtain ⟨hcut, hbound⟩ := hpacked.splitLong
      rw [List.foldl_cons, List.flatten_cons, ← List.append_assoc, hround]
      exact ih hcut hbound

theorem Packed.close (h : Packed maxChars seen chunks current)
    (hshort : current.length ≤ maxChars) :
    Packed maxChars seen (if current = [] then chunks else chunks ++ [current]) [] := by
  split
  · next hempty =>
      subst hempty
      exact h
  · next hne =>
      refine ⟨fun chunk hchunk => ?_, by simp, ?_⟩
      · rcases List.mem_append.mp hchunk with hchunk | hchunk
        · exact h.chunk chunk hchunk
        · obtain rfl := List.mem_singleton.mp hchunk
          exact ⟨hne, hshort⟩
      · rw [List.flatten_append, List.flatten_singleton, List.append_nil, h.kept]

/-- `chunk_text` returns for every text and every bound: its chunks are neither empty nor too long,
and hold all of the text but its whitespace. -/
theorem chunkText_keeps (text : String) (maxChars : ℕ+) :
    (∀ chunk ∈ chunkText text maxChars, chunk ≠ "" ∧ chunk.length ≤ maxChars) ∧
      withoutBlanks (String.join (chunkText text maxChars)).toList =
        withoutBlanks text.toList := by
  have hinit : Packed maxChars [] [] [] := ⟨by simp, by simp, rfl⟩
  obtain ⟨hpacked, hshort⟩ := hinit.foldl (Nat.zero_le _)
    (((blocks (Char.ofNat 10) text.toList).map (trimEnds isSpace)).filter
      fun paragraph => !paragraph.isEmpty)
  rw [List.nil_append, flatten_filter_isEmpty] at hpacked
  have hread : withoutBlanks ((blocks (Char.ofNat 10) text.toList).map
      (trimEnds isSpace)).flatten = withoutBlanks text.toList := by
    rw [withoutBlanks_flatten_map withoutBlanks_trimEnds,
      withoutBlanks_flatten_blocks (by decide)]
  have hclosed := hpacked.close hshort
  constructor
  · intro chunk hchunk
    obtain ⟨cs, hcs, rfl⟩ := List.mem_map.mp hchunk
    obtain ⟨hne, hle⟩ := hclosed.chunk cs hcs
    refine ⟨fun hempty => hne ?_, by rwa [String.length_ofList]⟩
    simpa using congrArg String.toList hempty
  · rw [← hread, ← hclosed.kept, List.append_nil, String.toList_join, chunkText,
      List.flatMap_map]
    simp [List.flatMap_id']

end WaitLocalAgent.Knowledge
