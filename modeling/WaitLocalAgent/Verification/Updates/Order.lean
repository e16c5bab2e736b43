import WaitLocalAgent.Model.UpdateChannel

/-! # The order of versions

`SemVer.lt` is the precedence of the SemVer 2.0.0 specification, which is stated on its own as a
lexicographic order. -/

namespace WaitLocalAgent.UpdateChannel

open Foundation

variable {a b : SemVer}

/-- An identifier of a prerelease: numbers come before texts, by their value, and texts by their
characters. -/
abbrev Identifier := ℕ ⊕ₗ String

def PrereleaseToken.identifier : PrereleaseToken → Identifier
  | .number n => toLex (.inl n)
  | .text s => toLex (.inr s)

/-- Precedence: by major, minor and patch, and then a release after its prereleases, which are
compared identifier by identifier, a longer one after those that it continues. -/
abbrev Precedence := ℕ ×ₗ ℕ ×ₗ ℕ ×ₗ WithTop (List Identifier)

def SemVer.stage (a : SemVer) : WithTop (List Identifier) :=
  if a.prerelease = [] then ⊤ else ↑(a.prerelease.map PrereleaseToken.identifier)

def SemVer.precedence (a : SemVer) : Precedence :=
  toLex (a.major, toLex (a.minor, toLex (a.patch, a.stage)))

theorem identifier_injective : Function.Injective PrereleaseToken.identifier := by
  intro s t h
  cases s <;> cases t <;> simp_all [PrereleaseToken.identifier]

theorem stage_injective (h : a.stage = b.stage) : a.prerelease = b.prerelease := by
  simp only [SemVer.stage] at h
  split at h <;> split at h
  · next ha hb => rw [ha, hb]
  · cases h
  · cases h
  · exact List.map_injective_iff.mpr identifier_injective (WithTop.coe_injective h)

/-- Versions that come neither before nor after each other are the same. -/
theorem precedence_injective : Function.Injective SemVer.precedence := by
  intro a b h
  simp only [SemVer.precedence, toLex_inj, Prod.mk.injEq] at h
  obtain ⟨hmajor, hminor, hpatch, hstage⟩ := h
  have hprerelease := stage_injective hstage
  cases a
  cases b
  simp_all

/-- The order of two tokens that differ. -/
theorem identifier_lt_iff (left right : PrereleaseToken) :
    left.identifier < right.identifier ↔ match left, right with
      | .number m, .number n => m < n
      | .number _, .text _ => True
      | .text _, .number _ => False
      | .text s, .text t => s < t := by
  cases left <;> cases right <;> simp [PrereleaseToken.identifier]

theorem tokensLt?_cons_self (token : PrereleaseToken)
    (rest : List (PrereleaseToken × PrereleaseToken)) :
    tokensLt? ((token, token) :: rest) = tokensLt? rest := by
  cases token <;> simp [tokensLt?]

theorem tokensLt?_cons_of_ne {left right : PrereleaseToken} (h : left ≠ right)
    (rest : List (PrereleaseToken × PrereleaseToken)) :
    tokensLt? ((left, right) :: rest) =
      some (decide (left.identifier < right.identifier)) := by
  cases left <;> cases right <;> simp_all [tokensLt?, identifier_lt_iff]

/-- The loop over the tokens, and what it does when they run out. -/
theorem tokensLt_iff (ls rs : List PrereleaseToken) :
    (tokensLt? (ls.zip rs)).getD (decide (ls.length < rs.length)) = true ↔
      ls.map PrereleaseToken.identifier < rs.map PrereleaseToken.identifier := by
  induction ls generalizing rs with
  | nil => cases rs <;> simp [tokensLt?]
  | cons left ls ih =>
      cases rs with
      | nil => simp [tokensLt?]
      | cons right rs =>
          rw [List.zip_cons_cons, List.map_cons, List.map_cons, List.cons_lt_cons_iff]
          by_cases heq : left = right
          · subst heq
            rw [tokensLt?_cons_self]
            simp [ih]
          · have hid : left.identifier ≠ right.identifier := identifier_injective.ne heq
            rw [tokensLt?_cons_of_ne heq]
            simp [hid]

theorem stage_lt_iff : a.stage < b.stage ↔
    a.prerelease ≠ [] ∧ (b.prerelease = [] ∨ a.prerelease.map PrereleaseToken.identifier <
      b.prerelease.map PrereleaseToken.identifier) := by
  rw [SemVer.stage, SemVer.stage]
  split <;> split <;> simp_all

theorem lt_iff_precedence : a.lt b = true ↔ a.precedence < b.precedence := by
  simp only [SemVer.precedence, Prod.Lex.toLex_lt_toLex, stage_lt_iff]
  rw [SemVer.lt]
  split
  · next hne =>
      simp only [ne_eq, Prod.mk.injEq, not_and_or] at hne
      simp only [Bool.or_eq_true, Bool.and_eq_true, decide_eq_true_eq, beq_iff_eq]
      omega
  · next heq =>
      simp only [ne_eq, Prod.mk.injEq, not_not] at heq
      obtain ⟨hmajor, hminor, hpatch⟩ := heq
      simp only [hmajor, hminor, hpatch, lt_irrefl, false_or, true_and]
      split_ifs with hboth ha hb
      · simp [hboth.1]
      · simp [ha]
      · simp [ha, hb]
      · rw [tokensLt_iff]
        simp [ha, hb]

theorem lt_isStrictTotalOrder : IsStrictTotalOrder SemVer fun a b => a.lt b = true where
  trichotomous a b hab hba := by
    rw [lt_iff_precedence] at hab hba
    exact precedence_injective (le_antisymm (not_lt.mp hba) (not_lt.mp hab))
  irrefl a h := lt_irrefl _ (lt_iff_precedence.mp h)
  trans a b c hab hbc :=
    lt_iff_precedence.mpr ((lt_iff_precedence.mp hab).trans (lt_iff_precedence.mp hbc))

section Checks

variable {d : DecimalDigits} {settings : Settings} {currentVersion checkedAt : String}
  {served : Served} {verified : Except String UpdateMetadata} {status : UpdateStatus}

theorem compareVersions_eq_ok
    (h : compareVersions d settings currentVersion checkedAt verified = .ok status) :
    ∃ metadata remote installed, verified = .ok metadata ∧
      parseSemver d metadata.version = .ok remote ∧
      parseSemver d currentVersion = .ok installed ∧
      (status.status = .updateAvailable ↔ installed.precedence < remote.precedence ∧
        (remote.prerelease = [] ∨ settings.updateAllowPrerelease = true)) := by
  obtain ⟨metadata, hmetadata, h⟩ := bind_eq_ok.mp h
  obtain ⟨remote, hremote, h⟩ := bind_eq_ok.mp h
  obtain ⟨installed, hinstalled, h⟩ := bind_eq_ok.mp h
  refine ⟨metadata, remote, installed, hmetadata, hremote, hinstalled, ?_⟩
  rw [← lt_iff_precedence]
  split at h
  · next hignored =>
      obtain rfl := pure_eq_ok.mp h
      simp [UpdateMetadata.status, hignored.1, hignored.2]
  · next hadmitted =>
      rw [not_and_or, not_not, not_not] at hadmitted
      split at h
      · next hlt =>
          obtain rfl := pure_eq_ok.mp h
          simpa [UpdateMetadata.status, hlt] using hadmitted
      · next hlt =>
          obtain rfl := pure_eq_ok.mp h
          simp [UpdateMetadata.status, hlt]

theorem exists_compareVersions {metadata : UpdateMetadata} {remote installed : SemVer}
    (hremote : parseSemver d metadata.version = .ok remote)
    (hinstalled : parseSemver d currentVersion = .ok installed) :
    ∃ status, compareVersions d settings currentVersion checkedAt (.ok metadata) =
      .ok status := by
  rw [compareVersions, ok_bind, hremote, ok_bind, hinstalled, ok_bind]
  split
  · exact ⟨_, rfl⟩
  · split <;> exact ⟨_, rfl⟩

/-- An update is reported for a later version that the channel serves, and for no other. -/
theorem checkForUpdates_iff :
    (checkForUpdates d settings currentVersion checkedAt served).status = .updateAvailable ↔
      settings.updateChannelUrl ≠ "" ∧ settings.updatePubkeys ≠ [] ∧
        ∃ metadata installed remote, served = .document (.ok metadata) ∧
          parseSemver d currentVersion = .ok installed ∧
          parseSemver d metadata.version = .ok remote ∧
          installed.precedence < remote.precedence ∧
          (remote.prerelease = [] ∨ settings.updateAllowPrerelease = true) := by
  rw [checkForUpdates.eq_def]
  split
  · next hurl => simp [hurl]
  · next hurl =>
      split
      · next hkeys => simp [hkeys]
      · next hkeys =>
          cases served with
          | unreachable => simp
          | document verified =>
              simp only [hurl, hkeys, ne_eq, not_false_eq_true, true_and]
              cases hstatus : compareVersions d settings currentVersion checkedAt verified with
              | ok status =>
                  obtain ⟨metadata, remote, installed, rfl, hremote, hinstalled, hiff⟩ :=
                    compareVersions_eq_ok hstatus
                  simp [hiff, hremote, hinstalled]
              | error e =>
                  simp only [reduceCtorEq, false_iff, not_exists, not_and]
                  rintro metadata installed remote hserved hinstalled hremote
                  obtain rfl := Served.document.inj hserved
                  obtain ⟨status, hok⟩ : ∃ status, compareVersions d settings currentVersion
                      checkedAt (.ok metadata) = .ok status :=
                    exists_compareVersions hremote hinstalled
                  cases hstatus.symm.trans hok

end Checks

/-- Versions are ordered by precedence, and a check reports the update it is served if and only if
it comes after what is installed, unless it is a prerelease and none are allowed. -/
theorem updates_follow_precedence (d : DecimalDigits) :
    (IsStrictTotalOrder SemVer fun a b => a.lt b = true) ∧
      (∀ a b : SemVer, a.lt b = true ↔ a.precedence < b.precedence) ∧
      ∀ settings currentVersion checkedAt served,
        (checkForUpdates d settings currentVersion checkedAt served).status = .updateAvailable ↔
          settings.updateChannelUrl ≠ "" ∧ settings.updatePubkeys ≠ [] ∧
            ∃ metadata installed remote, served = .document (.ok metadata) ∧
              parseSemver d currentVersion = .ok installed ∧
              parseSemver d metadata.version = .ok remote ∧
              installed.precedence < remote.precedence ∧
              (remote.prerelease = [] ∨ settings.updateAllowPrerelease = true) :=
  ⟨lt_isStrictTotalOrder, fun _ _ => lt_iff_precedence, fun _ _ _ _ => checkForUpdates_iff⟩

/-- A later prerelease is missed where prereleases are not allowed. -/
theorem not_updates_follow_precedence :
    ¬ ∀ settings currentVersion checkedAt metadata installed remote,
      settings.updateChannelUrl ≠ "" → settings.updatePubkeys ≠ [] →
      parseSemver .unicode currentVersion = .ok installed →
      parseSemver .unicode metadata.version = .ok remote →
      installed.precedence < remote.precedence →
      (checkForUpdates .unicode settings currentVersion checkedAt
        (.document (.ok metadata))).status = .updateAvailable := by
  intro h
  have hmissed := h ⟨"https://updates.example/channel.json", ["key"], false⟩ "2.0.0-rc.1"
    "2026-01-05T09:00:00Z" ⟨"2.0.0-rc.2", "1.0.0", "https://updates.example/notes"⟩
    ⟨2, 0, 0, [.text "rc", .number 1]⟩ ⟨2, 0, 0, [.text "rc", .number 2]⟩ (by decide) (by decide)
    (by decide) (by decide) (lt_iff_precedence.mp (by decide))
  exact absurd hmissed (by decide)

end WaitLocalAgent.UpdateChannel
