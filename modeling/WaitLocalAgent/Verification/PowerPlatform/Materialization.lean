import WaitLocalAgent.Foundation.Blanks
import WaitLocalAgent.Model.PackageMaterialization
import WaitLocalAgent.Verification.PowerPlatform.Files

/-! # What is materialized

Files are validated under their normalized paths and written one after the other under the paths as
they are spelled. An exception ends the loop where it stands. -/

namespace WaitLocalAgent.PowerPlatform

open Foundation

def RawFile.normalized (f : RawFile) : String :=
  (safeRelativePath (.text f.path) "package file path").toOption.getD ""

def RawFile.validatedTarget (output : FilePath) (f : RawFile) : FilePath :=
  output ++ posixParts f.normalized

def WritesValidated (lib : Library) (host : Host) (clientId : Option JsonValue)
    (package : List (String × JsonValue)) (fs : FileSystem) : Prop :=
  let after := (materializePowerPlatformPackage lib host clientId package fs).2
  ∀ result, (materializePowerPlatformPackage lib host clientId package fs).1 = some result →
    (result.status = .succeeded → ∀ output, host.resolve (rawOutput package) = some output →
      (∀ f ∈ rawFiles package,
        after.file? (f.validatedTarget output) = some f.content.toUTF8) ∧
      ∀ p, output <+: p → p ∉ (rawFiles package).map (RawFile.validatedTarget output) →
        after.file? p = fs.file? p) ∧
    (result.started = false → ∀ workspace, host.resolve host.settings.workspace = some workspace →
      ∀ p, workspace <+: p → after.file? p = fs.file? p)

/-! ### Files that are written -/

def writes (output : FilePath) (files : List RawFile) : List (FilePath × ByteArray) :=
  files.map fun f => (f.target output, f.content.toUTF8)

namespace FileSystem

def withFiles (output : FilePath) (fs : FileSystem) (files : List RawFile) : FileSystem :=
  files.foldl (withFile output) fs

end FileSystem

theorem assigned?_append {α κ : Type} [DecidableEq κ] (first second : List (κ × α)) (key : κ) :
    assigned? (first ++ second) key = (assigned? second key).or (assigned? first key) := by
  simp only [assigned?, List.reverse_append, List.find?_append, Option.map_or]

theorem assigned?_singleton {α κ : Type} [DecidableEq κ] (key k : κ) (value : α) :
    assigned? [(key, value)] k = if key = k then some value else none := by
  simp only [assigned?, List.reverse_singleton, List.find?_singleton, decide_eq_true_eq]
  split <;> simp

theorem assigned?_eq_none {α κ : Type} [DecidableEq κ] {entries : List (κ × α)} {key : κ} :
    assigned? entries key = none ↔ key ∉ entries.map Prod.fst := by
  simp only [assigned?, Option.map_eq_none_iff, List.find?_eq_none, List.mem_reverse,
    decide_eq_true_eq, List.mem_map, not_exists, not_and]

theorem file?_write (fs : FileSystem) (path : FilePath) (bytes : ByteArray) (p : FilePath) :
    (fs.write path bytes).file? p = (assigned? [(path, bytes)] p).or (fs.file? p) := by
  rw [assigned?_singleton]
  by_cases h : p = path
  · simp [FileSystem.write, h]
  · simp [FileSystem.write, h, Ne.symm h]

theorem file?_withFiles (output : FilePath) (fs : FileSystem) (files : List RawFile)
    (p : FilePath) : (fs.withFiles output files).file? p =
      (assigned? (writes output files) p).or (fs.file? p) := by
  induction files generalizing fs with
  | nil => rfl
  | cons f files ih =>
      have hfile : (fs.withFile output f).file? p =
          (assigned? [(f.target output, f.content.toUTF8)] p).or (fs.file? p) :=
        file?_write _ _ _ _
      have hwrites : writes output (f :: files) =
          [(f.target output, f.content.toUTF8)] ++ writes output files := rfl
      rw [FileSystem.withFiles, List.foldl_cons, ← FileSystem.withFiles, ih, hfile, hwrites,
        assigned?_append, Option.or_assoc]

/-! ### One file -/

namespace Attempt

def fileSystem : Attempt → FileSystem
  | refused fs _ => fs
  | broken fs _ => fs
  | written fs => fs

def Stops : Attempt → Prop
  | refused _ _ => True
  | broken _ _ => True
  | written _ => False

end Attempt

/-- What an exception leaves of the file under way. -/
def Attempt.leftover (disk : Disk) (target : FilePath) (f : RawFile) :
    Attempt → List (FilePath × ByteArray)
  | .broken _ _ => [(target, (disk.failedWrite target).getD f.content.toUTF8)]
  | _ => []

variable {fs : FileSystem} {f : RawFile}

section Rounds

variable {lib : Library} {disk : Disk} {workspace output : FilePath}

theorem makeDirectories_eq_some {fs after : FileSystem} {path : FilePath}
    (h : fs.makeDirectories disk path = some after) :
    after = { fs with isDirectory := fun p => p ∈ path.inits || fs.isDirectory p } := by
  rw [FileSystem.makeDirectories] at h
  split at h
  · cases h
  · exact (Option.some.inj h).symm

/-- A round that writes its file changes nothing else. -/
theorem materializeFile_written {fs after : FileSystem}
    (h : materializeFile lib disk workspace output fs f = .written after) :
    after = fs.withFile output f := by
  rw [materializeFile] at h
  split at h
  · cases h
  · split at h
    · cases h
    · rename_i made hmade
      rw [makeDirectories_eq_some hmade, createFile] at h
      split at h
      · cases h
      · split at h
        · cases h
        · split at h
          · cases h
          · dsimp only at h
            split at h
            · cases h
            · exact (Attempt.written.inj h).symm

/-- A round that stops changes nothing but the file under way. -/
theorem file?_materializeFile
    (h : (materializeFile lib disk workspace output fs f).Stops) (p : FilePath) :
    (materializeFile lib disk workspace output fs f).fileSystem.file? p =
      (assigned? ((materializeFile lib disk workspace output fs f).leftover disk
        (f.target output) f) p).or (fs.file? p) := by
  rw [materializeFile] at h ⊢
  split
  · rfl
  · rename_i hinside
    rw [if_neg hinside] at h
    split
    · rfl
    · rename_i made hmade
      simp only [hmade] at h
      rw [makeDirectories_eq_some hmade] at h ⊢
      rw [createFile] at h ⊢
      split
      · rfl
      · rename_i hopen
        rw [if_neg hopen] at h
        split
        · rename_i bytes hbytes
          rw [Attempt.leftover, hbytes]
          exact file?_write _ _ _ _
        · rename_i hwrite
          simp only [hwrite] at h
          split
          · rw [Attempt.leftover, hwrite]
            exact file?_write _ _ _ _
          · rename_i hread
            rw [if_neg hread] at h
            dsimp only at h ⊢
            split
            · rw [Attempt.leftover, hwrite]
              exact file?_write _ _ _ _
            · rename_i hdigest
              rw [if_neg hdigest] at h
              exact h.elim

/-! ### The loop -/

def AllWritten (lib : Library) (disk : Disk) (workspace output : FilePath) (fs : FileSystem)
    (files : List RawFile) : Prop :=
  ∀ before f after, files = before ++ f :: after →
    ¬ (materializeFile lib disk workspace output (fs.withFiles output before) f).Stops

theorem allWritten_cons {files : List RawFile} :
    AllWritten lib disk workspace output fs (f :: files) ↔
      ¬ (materializeFile lib disk workspace output fs f).Stops ∧
        AllWritten lib disk workspace output (fs.withFile output f) files := by
  constructor
  · intro h
    refine ⟨h [] f files rfl, fun before g after hfiles => ?_⟩
    exact h (f :: before) g after (by rw [hfiles]; rfl)
  · rintro ⟨hf, hfiles⟩ before g after hsplit
    cases before with
    | nil =>
        cases hsplit
        exact hf
    | cons first before =>
        cases hsplit
        exact hfiles before g after rfl

theorem written_of_not_stops
    (h : ¬ (materializeFile lib disk workspace output fs f).Stops) :
    materializeFile lib disk workspace output fs f = .written (fs.withFile output f) := by
  cases hattempt : materializeFile lib disk workspace output fs f with
  | refused fs' message => exact absurd trivial (by rw [hattempt] at h; exact h)
  | broken fs' message => exact absurd trivial (by rw [hattempt] at h; exact h)
  | written after => rw [materializeFile_written hattempt]

/-- The loop writes the files up to the first one that stops it. -/
theorem materializeFiles_append {before : List RawFile} (rest : List RawFile)
    (h : AllWritten lib disk workspace output fs before) :
    materializeFiles lib disk workspace output fs (before ++ rest) =
      materializeFiles lib disk workspace output (fs.withFiles output before) rest := by
  induction before generalizing fs with
  | nil => rfl
  | cons f before ih =>
      rw [allWritten_cons] at h
      rw [List.cons_append, materializeFiles, written_of_not_stops h.1]
      exact ih h.2

theorem materializeFiles_of_allWritten {files : List RawFile}
    (h : AllWritten lib disk workspace output fs files) :
    materializeFiles lib disk workspace output fs files = (fs.withFiles output files, none) := by
  have happend := materializeFiles_append [] h
  rwa [List.append_nil] at happend

theorem materializeFiles_of_stops {before : List RawFile}
    (hbefore : AllWritten lib disk workspace output fs before)
    (hstops : (materializeFile lib disk workspace output (fs.withFiles output before) f).Stops)
    (after : List RawFile) :
    ∃ message, materializeFiles lib disk workspace output fs (before ++ f :: after) =
      ((materializeFile lib disk workspace output (fs.withFiles output before) f).fileSystem,
        some message) := by
  rw [materializeFiles_append _ hbefore, materializeFiles]
  cases hattempt : materializeFile lib disk workspace output (fs.withFiles output before) f with
  | refused fs' message => exact ⟨message, rfl⟩
  | broken fs' message => exact ⟨message, rfl⟩
  | written fs' =>
      rw [hattempt] at hstops
      exact hstops.elim

theorem allWritten_or_stops (fs : FileSystem) (files : List RawFile) :
    AllWritten lib disk workspace output fs files ∨
      ∃ before f after, files = before ++ f :: after ∧
        AllWritten lib disk workspace output fs before ∧
          (materializeFile lib disk workspace output (fs.withFiles output before) f).Stops := by
  induction files generalizing fs with
  | nil => exact .inl fun before f after h => by simp at h
  | cons f files ih =>
      by_cases hf : (materializeFile lib disk workspace output fs f).Stops
      · exact .inr ⟨[], f, files, rfl, fun before g after h => by simp at h, hf⟩
      · rcases ih (fs.withFile output f) with hall | ⟨before, g, after, rfl, hbefore, hstops⟩
        · exact .inl (allWritten_cons.mpr ⟨hf, hall⟩)
        · exact .inr ⟨f :: before, g, after, rfl, allWritten_cons.mpr ⟨hf, hbefore⟩, hstops⟩

end Rounds

/-- There is only one first file that stops the loop. -/
theorem first_stop {lib : Library} {disk : Disk} {workspace output : FilePath}
    {files before before' after after' : List RawFile} {f f' : RawFile}
    (hfiles : files = before ++ f :: after) (hfiles' : files = before' ++ f' :: after')
    (hbefore : AllWritten lib disk workspace output fs before)
    (hbefore' : AllWritten lib disk workspace output fs before')
    (hstops : (materializeFile lib disk workspace output (fs.withFiles output before) f).Stops)
    (hstops' : (materializeFile lib disk workspace output (fs.withFiles output before') f').Stops) :
    before = before' ∧ f = f' := by
  rw [hfiles] at hfiles'
  rcases List.append_eq_append_iff.mp hfiles' with ⟨middle, rfl, hmiddle⟩ | ⟨middle, rfl, hmiddle⟩
  · cases middle with
    | nil =>
        cases hmiddle
        exact ⟨by simp, rfl⟩
    | cons g middle =>
        cases hmiddle
        exact absurd hstops (hbefore' before f middle rfl)
  · cases middle with
    | nil =>
        cases hmiddle
        exact ⟨by simp, rfl⟩
    | cons g middle =>
        cases hmiddle
        exact absurd hstops' (hbefore before' f' middle rfl)

/-! ### Where files land -/

/-- The last text that is written to each place is what belongs there. -/
structure Lands (lib : Library) (disk : Disk) (workspace output : FilePath) (fs : FileSystem)
    (files : List RawFile) : Prop where
  /-- Where all files are written, each is found where it was validated, and a place that no file
  was validated for is left as it was. -/
  whole : AllWritten lib disk workspace output fs files →
    (∀ f ∈ files, (assigned? (writes output files) (f.validatedTarget output)).or
      (fs.file? (f.validatedTarget output)) = some f.content.toUTF8) ∧
    ∀ f ∈ files, f.target output ∉ files.map (RawFile.validatedTarget output) →
      assigned? (writes output files) (f.target output) = fs.file? (f.target output)
  /-- Where a file stops the loop, all that was written until then was there before. -/
  broken : ∀ before f after, files = before ++ f :: after →
    AllWritten lib disk workspace output fs before →
    (materializeFile lib disk workspace output (fs.withFiles output before) f).Stops →
    ∀ p ∈ (writes output before ++ (materializeFile lib disk workspace output
        (fs.withFiles output before) f).leftover disk (f.target output) f).map Prod.fst,
      assigned? (writes output before ++ (materializeFile lib disk workspace output
        (fs.withFiles output before) f).leftover disk (f.target output) f) p = fs.file? p

/-- The files of a package land, if materialization comes as far as to write them. -/
def Host.Lands (lib : Library) (host : Host) (package : List (String × JsonValue))
    (fs : FileSystem) : Prop :=
  host.settings.allowWriteActions = true → ∀ workspace,
    host.resolve host.settings.workspace = some workspace → fs.isDirectory workspace = true →
    ∀ output, host.resolve (rawOutput package) = some output → inside workspace output = true →
    fs.file? output = none → ∀ made, fs.makeDirectories host.disk output = some made →
    PowerPlatform.Lands lib host.disk workspace output made (rawFiles package)

/-- A file is written if it comes after files that are, whatever is written later. -/
theorem assigned?_or_eq {α κ : Type} [DecidableEq κ] {entries : List (κ × α)} {old : κ → Option α}
    (h : ∀ p ∈ entries.map Prod.fst, assigned? entries p = old p) (p : κ) :
    (assigned? entries p).or (old p) = old p := by
  by_cases hp : p ∈ entries.map Prod.fst
  · rw [h p hp, Option.or_self]
  · rw [assigned?_eq_none.mpr hp, Option.none_or]

section Below

variable {lib : Library} {host : Host} {fs : FileSystem} {workspace output : FilePath}
  {files : List RawFile}

/-- What `WritesValidated` says of the files below the output directory. -/
def BelowValidated (lib : Library) (host : Host) (fs : FileSystem) (workspace output : FilePath)
    (files : List RawFile) : Prop :=
  let after := (materializeBelow lib host fs workspace output files).2
  ∀ result, (materializeBelow lib host fs workspace output files).1 = some result →
    (result.status = .succeeded →
      (∀ f ∈ files, after.file? (f.validatedTarget output) = some f.content.toUTF8) ∧
      ∀ p, output <+: p → p ∉ files.map (RawFile.validatedTarget output) →
        after.file? p = fs.file? p) ∧
    (result.started = false → ∀ p, workspace <+: p → after.file? p = fs.file? p)

theorem validated_of_allWritten {made : FileSystem} (hmade : made.file? = fs.file?)
    (hall : AllWritten lib host.disk workspace output made files) :
    ((∀ f ∈ files, (made.withFiles output files).file? (f.validatedTarget output) =
        some f.content.toUTF8) ∧
      ∀ p, output <+: p → p ∉ files.map (RawFile.validatedTarget output) →
        (made.withFiles output files).file? p = fs.file? p) ↔
      Lands lib host.disk workspace output made files := by
  simp only [file?_withFiles, hmade]
  constructor
  · rintro ⟨hvalidated, hothers⟩
    refine ⟨fun _ => ⟨by simpa only [hmade] using hvalidated, fun f hf hnot => ?_⟩, ?_⟩
    · have hwritten : f.target output ∈ (writes output files).map Prod.fst := by
        rw [writes, List.map_map]
        exact List.mem_map.mpr ⟨f, hf, rfl⟩
      have hsame := hothers (f.target output) (List.prefix_append _ _) hnot
      obtain ⟨bytes, hbytes⟩ := Option.ne_none_iff_exists'.mp
        (assigned?_eq_none.not.mpr (not_not.mpr hwritten))
      rw [hbytes, Option.some_or] at hsame
      rw [hbytes, hmade, hsame]
    · intro before f after hfiles hbefore hstops
      exact absurd hstops (hall before f after hfiles)
  · intro hlands
    obtain ⟨hvalidated, hothers⟩ := hlands.whole hall
    rw [hmade] at hvalidated
    refine ⟨hvalidated, fun p _ hp => ?_⟩
    by_cases hwritten : p ∈ (writes output files).map Prod.fst
    · rw [writes, List.map_map] at hwritten
      obtain ⟨f, hf, rfl⟩ := List.mem_map.mp hwritten
      rw [Function.comp_apply, hothers f hf hp, hmade, Option.or_self]
    · rw [assigned?_eq_none.mpr hwritten, Option.none_or]

theorem unchanged_of_stops {made : FileSystem} (hmade : made.file? = fs.file?)
    (hinside : inside workspace output = true) {before after : List RawFile}
    (hfiles : files = before ++ f :: after)
    (hbefore : AllWritten lib host.disk workspace output made before)
    (hstops : (materializeFile lib host.disk workspace output
      (made.withFiles output before) f).Stops) :
    (∀ p, workspace <+: p → (materializeFile lib host.disk workspace output
      (made.withFiles output before) f).fileSystem.file? p = fs.file? p) ↔
        Lands lib host.disk workspace output made files := by
  have hbelow : ∀ g : RawFile, workspace <+: g.target output := by
    intro g
    rw [inside, Bool.and_eq_true, List.isPrefixOf_iff_prefix] at hinside
    exact hinside.2.trans (List.prefix_append _ _)
  have hall : ¬ AllWritten lib host.disk workspace output made files :=
    fun hall => hall before f after hfiles hstops
  simp only [file?_materializeFile hstops, file?_withFiles, hmade, ← Option.or_assoc,
    ← assigned?_append]
  constructor
  · intro hsame
    refine ⟨fun h => absurd h hall, fun before' f' after' hfiles' hbefore' hstops' => ?_⟩
    obtain ⟨rfl, rfl⟩ := first_stop hfiles hfiles' hbefore hbefore' hstops hstops'
    intro p hp
    have hworkspace : workspace <+: p := by
      rw [List.map_append, List.mem_append, writes, List.map_map] at hp
      rcases hp with hp | hp
      · obtain ⟨g, -, rfl⟩ := List.mem_map.mp hp
        exact hbelow g
      · cases hattempt : materializeFile lib host.disk workspace output
          (made.withFiles output before) f with
        | broken fs' message =>
            rw [hattempt, Attempt.leftover, List.map_singleton, List.mem_singleton] at hp
            rw [hp]
            exact hbelow f
        | refused fs' message => rw [hattempt] at hp; cases hp
        | written fs' => rw [hattempt] at hp; cases hp
    have hsame := hsame p hworkspace
    obtain ⟨bytes, hbytes⟩ := Option.ne_none_iff_exists'.mp
      (assigned?_eq_none.not.mpr (not_not.mpr hp))
    rw [hbytes, Option.some_or] at hsame
    rw [hbytes, hmade, hsame]
  · intro hlands p _
    have hsame := hlands.broken before f after hfiles hbefore hstops
    rw [hmade] at hsame
    exact assigned?_or_eq hsame p

theorem belowValidated_iff {made : FileSystem} (hinside : inside workspace output = true)
    (hfile : fs.file? output = none) (hmade : fs.makeDirectories host.disk output = some made) :
    BelowValidated lib host fs workspace output files ↔
      Lands lib host.disk workspace output made files := by
  have hsame : made.file? = fs.file? := by rw [makeDirectories_eq_some hmade]
  have hcases : AllWritten lib host.disk workspace output made files ∨ _ :=
    allWritten_or_stops made files
  rcases hcases with hall | ⟨before, f, after, hfiles, hbefore, hstops⟩
  · rw [← validated_of_allWritten hsame hall]
    simp [BelowValidated, materializeBelow, hfile, hmade, materializeFiles_of_allWritten hall]
  · obtain ⟨message, hrun⟩ := materializeFiles_of_stops hbefore hstops after
    rw [← unchanged_of_stops hsame hinside hfiles hbefore hstops]
    rw [← hfiles] at hrun
    simp [BelowValidated, materializeBelow, hfile, hmade, hrun, refusedMaterialization]

/-- Nothing is written where the output directory is refused. -/
theorem belowValidated_of_refused
    (h : fs.file? output = none → fs.makeDirectories host.disk output = none) :
    BelowValidated lib host fs workspace output files := by
  rw [BelowValidated, materializeBelow]
  split
  · simp [refusedMaterialization]
  · rename_i hfile
    rw [h (by simpa using hfile)]
    simp [refusedMaterialization]

end Below

/-! ### Paths without surrounding blanks -/

theorem assigned?_of_mem {α κ : Type} [DecidableEq κ] {entries : List (κ × α)} {key : κ} {value : α}
    (hnodup : (entries.map Prod.fst).Nodup) (h : (key, value) ∈ entries) :
    assigned? entries key = some value := by
  obtain ⟨before, after, rfl⟩ := List.append_of_mem h
  rw [List.map_append, List.map_cons] at hnodup
  have hafter : assigned? after key = none :=
    assigned?_eq_none.mpr (List.nodup_cons.mp (List.Nodup.of_append_right hnodup)).1
  rw [← List.singleton_append, assigned?_append, assigned?_append, hafter, assigned?_singleton,
    if_pos rfl]
  rfl

theorem posixParts_of_relative {s : String} (h : s.toList.head? ≠ some '/') : posixParts s =
    ((s.toList.splitOn '/').filter fun part => part != [] && part != ['.']).map String.ofList := by
  rw [posixParts]
  cases hs : s.toList with
  | nil => rfl
  | cons c cs =>
      have hc : c ≠ '/' := by
        rintro rfl
        exact h (by rw [hs]; rfl)
      simp [hc]

theorem posixParts_intercalate {parts : List String}
    (h : ∀ part ∈ parts, part ≠ "" ∧ part ≠ "." ∧ '/' ∉ part.toList) :
    posixParts (String.intercalate "/" parts) = parts := by
  by_cases hne : parts = []
  · rw [hne]
    rfl
  have hlist : (String.intercalate "/" parts).toList =
      ['/'].intercalate (parts.map String.toList) :=
    String.toList_intercalate
  have hsplit : (String.intercalate "/" parts).toList.splitOn '/' = parts.map String.toList := by
    rw [hlist]
    refine List.splitOn_intercalate '/' ?_ (by simpa using hne)
    simpa using fun part hpart => (h part hpart).2.2
  have hhead : (String.intercalate "/" parts).toList.head? ≠ some '/' := by
    intro hhead
    obtain ⟨cs, hcs⟩ := List.head?_eq_some_iff.mp hhead
    rw [hcs, List.splitOn_cons_eq_if_modifyHead, if_pos (by rfl)] at hsplit
    have hempty : [] ∈ parts.map String.toList := hsplit ▸ List.mem_cons_self
    obtain ⟨part, hpart, hnil⟩ := List.mem_map.mp hempty
    exact (h part hpart).1 (String.toList_eq_nil_iff.mp hnil)
  rw [posixParts_of_relative hhead, hsplit, List.filter_eq_self.mpr, List.map_map]
  · simp [Function.comp_def]
  · intro cs hcs
    obtain ⟨part, hpart, rfl⟩ := List.mem_map.mp hcs
    rw [Bool.and_eq_true, bne_iff_ne, bne_iff_ne]
    exact ⟨mt String.toList_eq_nil_iff.mp (h part hpart).1,
      fun hdot => (h part hpart).2.1 (String.toList_inj.mp hdot)⟩

/-- A safe path without blanks around it has the parts of its normal form. -/
theorem posixParts_safeRelativePath {path field normalized : String}
    (hstrip : Text.strip path = path)
    (h : safeRelativePath (.text path) field = .ok normalized) :
    normalized = String.intercalate "/" (posixParts path) ∧
      posixParts normalized = posixParts path := by
  simp only [safeRelativePath, text, hstrip, bind_eq_ok, raiseIf_eq_ok, pure_eq_ok] at h
  obtain ⟨path', hpath, _, hsafe, rfl⟩ := h
  split at hpath
  · cases hpath
  cases hpath
  rw [not_or, not_or] at hsafe
  obtain ⟨hhead, -, hparts⟩ := hsafe
  refine ⟨rfl, posixParts_intercalate fun part hpart => ?_⟩
  have hslash : '/' ∉ part.toList := by
    rw [posixParts_of_relative hhead] at hpart
    obtain ⟨cs, hcs, rfl⟩ := List.mem_map.mp hpart
    rw [String.toList_ofList]
    exact fun hmem =>
      (Text.exists_mem_splitOn_iff.mp ⟨cs, List.mem_of_mem_filter hcs, hmem⟩).2 rfl
  rw [List.any_eq_true, not_exists] at hparts
  have hpart := hparts part
  simp_all

theorem checkFile_ok {lib : Library} {before after : List PackageFile} {item : JsonValue}
    (h : checkFile lib before item = .ok after) :
    ∃ normalized, safeRelativePath (.text (rawFile item).path) "package file path" =
      .ok normalized ∧ normalized ∉ before.map PackageFile.path ∧
        after.map PackageFile.path = before.map PackageFile.path ++ [normalized] := by
  cases item with
  | object raw =>
      simp only [checkFile, bind_eq_ok, raiseIf_eq_ok, pure_eq_ok] at h
      obtain ⟨path, hpath, _, hnew, content, -, _, -, _, -, media, -, _, -, _, -, rfl⟩ := h
      refine ⟨path, ?_, hnew, by simp⟩
      have htext : ∃ s, JsonValue.get raw "path" = .text s := by
        simp only [safeRelativePath, bind_eq_ok] at hpath
        obtain ⟨s, hs, -⟩ := hpath
        cases hfield : JsonValue.get raw "path" with
        | text s => exact ⟨s, rfl⟩
        | _ => rw [hfield] at hs; cases hs
      obtain ⟨s, hs⟩ := htext
      have hraw : (rawFile (.object raw)).path = s := by simp only [rawFile, hs]
      rwa [hraw, ← hs]
  | _ => cases h

/-- Files that are accepted have safe paths, with different normal forms. -/
theorem checkFile_paths {lib : Library} {before after : List PackageFile} {items : List JsonValue}
    (hbefore : (before.map PackageFile.path).Nodup)
    (h : items.foldlM (checkFile lib) before = .ok after) :
    (∀ f ∈ items.map rawFile, ∃ normalized,
      safeRelativePath (.text f.path) "package file path" = .ok normalized) ∧
    (before.map PackageFile.path ++ (items.map rawFile).map RawFile.normalized).Nodup := by
  induction items generalizing before with
  | nil => simpa using hbefore
  | cons item items ih =>
      rw [List.foldlM_cons, bind_eq_ok] at h
      obtain ⟨next, hitem, h⟩ := h
      obtain ⟨normalized, hpath, hnew, hnext⟩ := checkFile_ok hitem
      have hnormalized : (rawFile item).normalized = normalized := by
        rw [RawFile.normalized, hpath]
        rfl
      obtain ⟨hpaths, hnodup⟩ := ih (by
        rw [hnext]
        exact List.nodup_append_comm.mp (List.nodup_cons.mpr ⟨hnew, hbefore⟩)) h
      rw [hnext, List.append_assoc] at hnodup
      rw [List.map_cons, List.map_cons, hnormalized]
      exact ⟨List.forall_mem_cons.mpr ⟨⟨normalized, hpath⟩, hpaths⟩, hnodup⟩

theorem rawFiles_of_accepted {lib : Library} {clientId : Option JsonValue}
    {package : List (String × JsonValue)} {digest : String}
    (h : validatePowerPlatformPackage lib clientId (.object package) = .ok digest) :
    ∃ (items : List JsonValue) (files : List PackageFile),
      rawFiles package = items.map rawFile ∧ items.foldlM (checkFile lib) [] = .ok files := by
  simp only [validatePowerPlatformPackage, bind_eq_ok] at h
  obtain ⟨tenant, -, output, -, _, -, solution, -, _, -, _, -, files, hfiles, -⟩ := h
  rw [checkFiles] at hfiles
  split at hfiles
  · next items hitems =>
      split at hfiles
      · cases hfiles
      · simp only [bind_eq_ok] at hfiles
        obtain ⟨_, -, checked, hchecked, -⟩ := hfiles
        exact ⟨items, checked, by rw [rawFiles, hitems], hchecked⟩
  · cases hfiles

/-- Files that are accepted under paths without blanks around them land, if all are written. -/
theorem lands_of_strip {lib : Library} {clientId : Option JsonValue}
    {package : List (String × JsonValue)} {digest : String}
    (haccepted : validatePowerPlatformPackage lib clientId (.object package) = .ok digest)
    (hstrip : ∀ f ∈ rawFiles package, Text.strip f.path = f.path) {disk : Disk}
    {workspace output : FilePath} {fs : FileSystem}
    (hall : AllWritten lib disk workspace output fs (rawFiles package)) :
    Lands lib disk workspace output fs (rawFiles package) := by
  obtain ⟨items, files, hraw, hchecked⟩ := rawFiles_of_accepted haccepted
  obtain ⟨hpaths, hnodup⟩ := checkFile_paths (by simp) hchecked
  rw [← hraw, List.map_nil, List.nil_append] at hnodup
  rw [← hraw] at hpaths
  have hspelled : ∀ f ∈ rawFiles package,
      f.normalized = String.intercalate "/" (posixParts f.path) ∧
        f.validatedTarget output = f.target output := by
    intro f hf
    obtain ⟨normalized, hpath⟩ := hpaths f hf
    have hnormalized : f.normalized = normalized := by
      rw [RawFile.normalized, hpath]
      rfl
    obtain ⟨hform, hparts⟩ := posixParts_safeRelativePath (hstrip f hf) hpath
    rw [RawFile.validatedTarget, RawFile.target, hnormalized, hparts]
    exact ⟨hform, rfl⟩
  have htargets : ((writes output (rawFiles package)).map Prod.fst).Nodup := by
    rw [writes, List.map_map]
    refine List.Nodup.map_on ?_ (List.Nodup.of_map _ hnodup)
    intro f hf g hg hsame
    have hparts : posixParts f.path = posixParts g.path := List.append_cancel_left hsame
    refine List.inj_on_of_nodup_map hnodup hf hg ?_
    rw [(hspelled f hf).1, (hspelled g hg).1, hparts]
  refine ⟨fun _ => ⟨fun f hf => ?_, fun f hf hnot => ?_⟩, ?_⟩
  · have hmem : (f.target output, f.content.toUTF8) ∈ writes output (rawFiles package) :=
      List.mem_map.mpr ⟨f, hf, rfl⟩
    rw [(hspelled f hf).2, assigned?_of_mem htargets hmem, Option.some_or]
  · exact absurd (List.mem_map.mpr ⟨f, hf, (hspelled f hf).2⟩) hnot
  · intro before f after hsplit _ hstops
    exact absurd hstops (hall before f after hsplit)

/-! ### Packages -/

/-- What is written is what was validated, exactly if the files land where they were validated. -/
theorem writesValidated_iff {lib : Library} {host : Host} {clientId : Option JsonValue}
    {package : List (String × JsonValue)} {digest : String}
    (haccepted : validatePowerPlatformPackage lib clientId (.object package) = .ok digest)
    (fs : FileSystem) :
    WritesValidated lib host clientId package fs ↔ host.Lands lib package fs := by
  rw [WritesValidated, materializePowerPlatformPackage, haccepted, Host.Lands]
  dsimp only
  cases hallow : host.settings.allowWriteActions with
  | false => simp [refusedMaterialization]
  | true =>
      cases hworkspace : host.resolve host.settings.workspace with
      | none => simp
      | some workspace =>
          cases hdirectory : fs.isDirectory workspace with
          | false => simp [refusedMaterialization, hdirectory]
          | true =>
              cases houtput : host.resolve (rawOutput package) with
              | none => simp [hdirectory]
              | some output =>
                  cases hinside : inside workspace output with
                  | false => simp [refusedMaterialization, hdirectory, hinside]
                  | true =>
                      have hbelow : BelowValidated lib host fs workspace output
                          (rawFiles package) ↔ (fs.file? output = none → ∀ made,
                            fs.makeDirectories host.disk output = some made →
                              Lands lib host.disk workspace output made (rawFiles package)) := by
                        constructor
                        · intro h hfile made hmade
                          exact (belowValidated_iff hinside hfile hmade).mp h
                        · intro h
                          cases hmade : fs.makeDirectories host.disk output with
                          | none => exact belowValidated_of_refused fun _ => hmade
                          | some made =>
                              cases hfile : fs.file? output with
                              | none =>
                                  exact (belowValidated_iff hinside hfile hmade).mpr
                                    (h hfile made hmade)
                              | some bytes =>
                                  exact belowValidated_of_refused fun hnone =>
                                    absurd hnone (by simp [hfile])
                      rw [BelowValidated] at hbelow
                      simpa [hdirectory, hinside] using hbelow

/-! ### A path with a blank after it -/

def blankDigest : String :=
  "sha256:29114363f749a0226b6988dda3ca2492a954117ab6b5f382706c20300dabc079"

def blankPackageDigest : String :=
  "sha256:d2c8249e357e980810fb1f0c1a548f64aa1f90895efcbada0e8e651b8ad33164"

def blankLibrary : Library where
  str _ := ""
  casefold := Text.lower
  uuid5 _ := ""
  sha256 bytes :=
    if bytes.size = 4 then "29114363f749a0226b6988dda3ca2492a954117ab6b5f382706c20300dabc079"
    else "d2c8249e357e980810fb1f0c1a548f64aa1f90895efcbada0e8e651b8ad33164"
  windowsParts s := [s]
  zipPath output solution := s!"{output}/{solution}.zip"
  floatRepr s := s

def blankFile (path : String) : JsonValue :=
  .object [("path", .text path), ("media_type", .text "application/xml"),
    ("digest", .text blankDigest), ("content", .text "<a/>")]

def blankPackage : List (String × JsonValue) :=
  [("format", .text packageFormat),
    ("format_version", .int 1),
    ("client_id", .text "acme"),
    ("solution", .object [("unique_name", .text "demo"), ("publisher_name", .text "Demo"),
      ("publisher_unique_name", .text "demo"), ("publisher_prefix", .text "wait")]),
    ("output_directory", .text "/w/out"),
    ("files", .array [blankFile "Other/Customizations.xml", blankFile "Other/Relationships.xml",
      blankFile "Other/Solution.xml "]),
    ("file_count", .int 3),
    ("deployable", .bool true),
    ("package_status", .text "deployable_source"),
    ("credentials_included", .bool false),
    ("unsupported_components", .array []),
    ("design_only_components", .array []),
    ("pac", .object [("minimum_cli_version", .text "2.4.1"), ("format", .text "xml_solution"),
      ("commands", .array [.array [.text "pac", .text "solution", .text "pack",
        .text "--folder", .text "/w/out", .text "--zipfile", .text "/w/out/demo.zip",
        .text "--packagetype", .text "Unmanaged"]])]),
    ("execution_started", .bool false),
    ("deployment_started", .bool false),
    ("package_digest", .text blankPackageDigest)]

def blankHost : Host where
  settings := ⟨true, "/w"⟩
  resolve s := some ((posixParts s).filter fun part => part ≠ "/")
  disk := ⟨fun _ => false, fun _ => false, fun _ => none, fun _ => false⟩

def blankFiles : List PackageFile :=
  [⟨"Other/Customizations.xml", "application/xml", "<a/>"⟩,
    ⟨"Other/Relationships.xml", "application/xml", "<a/>"⟩,
    ⟨"Other/Solution.xml", "application/xml", "<a/>"⟩]

def blankFileSystem : FileSystem := ⟨fun _ => none, fun p => p = [] || p = ["w"]⟩

theorem digest_blank {b : ByteArray} (h : b.size ≠ 4) :
    blankLibrary.digest b = blankPackageDigest := by
  have hsha : blankLibrary.sha256 b =
      "d2c8249e357e980810fb1f0c1a548f64aa1f90895efcbada0e8e651b8ad33164" := if_neg h
  rw [Library.digest, hsha]
  decide

theorem packageDigest_blank :
    checkPackageDigest blankLibrary blankPackage "/w/out" blankFiles = .ok blankPackageDigest := by
  have hfloatless : (JsonValue.object (expectedPackage blankLibrary blankPackage "/w/out"
      blankFiles)).floatless = true := by
    decide
  have hbulk : (JsonValue.object (expectedPackage blankLibrary blankPackage "/w/out"
      blankFiles)).bulk ≤ maxPackageBytes := by
    decide
  have htexts : 4 < (JsonValue.object (expectedPackage blankLibrary blankPackage "/w/out"
      blankFiles)).textBytes := by
    decide
  have hlower := textBytes_le_canonicalText (.object (expectedPackage blankLibrary blankPackage
    "/w/out" blankFiles))
  have hupper := utf8ByteSize_canonicalText_le hfloatless
  have hdigest := digest_blank (b := (canonicalText (.object (expectedPackage blankLibrary
    blankPackage "/w/out" blankFiles))).toUTF8) (by
      rw [String.toUTF8, String.size_toByteArray]
      omega)
  rw [checkPackageDigest, canonicalJson_of_floatless hfloatless, ok_bind,
    raiseIf_of_not (by omega), ok_bind, hdigest, raiseIf_of_not (by decide), ok_bind]
  rfl

theorem accepted_blank : validatePowerPlatformPackage blankLibrary none (.object blankPackage) =
    .ok blankPackageDigest := by
  have hflags : checkFlags blankPackage none = .ok "acme" := by decide
  have houtput : safeOutputDirectory blankLibrary (JsonValue.get blankPackage "output_directory") =
      .ok "/w/out" := by
    decide
  have hsolution : checkSolution blankLibrary (JsonValue.get blankPackage "solution") =
      .ok "demo" := by
    decide
  have hcomponents : checkComponents blankLibrary "acme" "package.unsupported_components"
      (JsonValue.get blankPackage "unsupported_components") = .ok () ∧
        checkComponents blankLibrary "acme" "package.design_only_components"
          (JsonValue.get blankPackage "design_only_components") = .ok () := by
    decide
  have hfiles : checkFiles blankLibrary blankPackage = .ok blankFiles := by decide
  have hpac : checkPac blankLibrary "/w/out" "demo" (JsonValue.get blankPackage "pac") =
      .ok () := by
    decide
  rw [validatePowerPlatformPackage, hflags, ok_bind, houtput, ok_bind,
    raiseIf_of_not (by decide), ok_bind, hsolution, ok_bind, hcomponents.1, ok_bind,
    hcomponents.2, ok_bind, hfiles, ok_bind, packageDigest_blank, ok_bind, hpac, ok_bind]
  rfl

theorem writesValidated_iff_blank :
    validatePowerPlatformPackage blankLibrary none (.object blankPackage) =
        .ok blankPackageDigest ∧
      (WritesValidated blankLibrary blankHost none blankPackage blankFileSystem ↔
        blankHost.Lands blankLibrary blankPackage blankFileSystem) :=
  ⟨accepted_blank, writesValidated_iff accepted_blank blankFileSystem⟩

/-- The file is written under its path with the blank, and is missing where it was validated. -/
theorem not_writesValidated : ¬ ∀ (lib : Library) (host : Host) (clientId : Option JsonValue)
    (package : List (String × JsonValue)) (digest : String),
      validatePowerPlatformPackage lib clientId (.object package) = .ok digest →
        ∀ fs, WritesValidated lib host clientId package fs := by
  intro h
  have hvalidated := h _ blankHost _ _ _ accepted_blank blankFileSystem
  have hrun : materializePowerPlatformPackage blankLibrary blankHost none blankPackage
      blankFileSystem = materializeBelow blankLibrary blankHost blankFileSystem ["w"] ["w", "out"]
        (rawFiles blankPackage) := by
    have hworkspace : blankHost.resolve blankHost.settings.workspace = some ["w"] := by
      decide
    have houtput : blankHost.resolve (rawOutput blankPackage) = some ["w", "out"] := by
      decide
    rw [materializePowerPlatformPackage, accepted_blank, hworkspace, houtput]
    rfl
  have hbelow : (materializeBelow blankLibrary blankHost blankFileSystem ["w"] ["w", "out"]
      (rawFiles blankPackage)).1 = some ⟨.succeeded, true,
        "Power Platform XML source was materialized locally."⟩ ∧
      (materializeBelow blankLibrary blankHost blankFileSystem ["w"] ["w", "out"]
        (rawFiles blankPackage)).2.file? ["w", "out", "Other", "Solution.xml"] = none := by
    decide
  rw [WritesValidated, hrun] at hvalidated
  have hfile := ((hvalidated _ hbelow.1).1 rfl ["w", "out"] (by decide)).1
    ⟨"Other/Solution.xml ", "<a/>", blankDigest⟩ (by decide)
  have htarget : RawFile.validatedTarget ["w", "out"]
      ⟨"Other/Solution.xml ", "<a/>", blankDigest⟩ = ["w", "out", "Other", "Solution.xml"] := by
    decide
  rw [htarget, hbelow.2] at hfile
  cases hfile

end WaitLocalAgent.PowerPlatform
