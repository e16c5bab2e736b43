import WaitLocalAgent.Model.AgentPlatform
import WaitLocalAgent.Verification.Redaction.Value

/-! # JSON texts of the agent platform

What is read of a stored value is the value with its keys sorted, which has the same digest. -/

namespace WaitLocalAgent.AgentPlatform

open Foundation JsonValue Redaction

variable {lib : Library} {v : JsonValue}

theorem loads?_jsonDumps (hv : v.exact lib.floats = true) :
    loads? lib.floats.repr (jsonDumps v) = some v.sortKeys := by
  rw [jsonDumps, loads?_writeAs lib.floats.repr compact_spaced.unicode]
  exact (floatsMeet_sortKeys _ _).trans (readable_of_exact lib.floats hv)

theorem jsonLoadsObject_jsonDumps {fs : List (String × JsonValue)}
    (hfs : (object fs).exact lib.floats = true) :
    jsonLoadsObject lib (jsonDumps (.object fs)) = byKey (sortFields fs) := by
  rw [jsonLoadsObject, loads?_jsonDumps hfs, sortKeys_object]

theorem jsonLoadsList_jsonDumps {vs : List JsonValue} (hvs : (array vs).exact lib.floats = true) :
    jsonLoadsList lib (jsonDumps (.array vs)) = vs.map sortKeys := by
  rw [jsonLoadsList, loads?_jsonDumps hvs, sortKeys, sortItems_eq_map]

/-- A digest does not depend on the order of keys. -/
theorem digestJson_congr {u v : JsonValue} (h : u.sortKeys = v.sortKeys) :
    digestJson lib u = digestJson lib v := by
  rw [digestJson, digestJson, jsonDumps, jsonDumps, h]

theorem exact_of_safeJsonValue {u : JsonValue} {maxBytes : ℕ}
    (h : safeJsonValue lib v maxBytes = .ok u) : u.exact lib.floats = true := by
  simp only [safeJsonValue, bind_eq_ok] at h
  obtain ⟨_, -, h⟩ := h
  split at h
  · next hloads =>
      cases h
      exact exact_of_loads? lib.floats hloads
  · cases h

theorem validateIdentifier_self {value label id : String}
    (h : validateIdentifier value label = .ok id) : validateIdentifier id label = .ok id := by
  simp only [validateIdentifier, bind_eq_ok, raiseIf_eq_ok, pure_eq_ok] at h ⊢
  obtain ⟨_, hid, rfl⟩ := h
  exact ⟨(), by simpa using hid, by simp⟩

theorem requireClient_self {value id : String} (h : requireClient lib value = .ok id) :
    requireClient lib id = .ok id := by
  simp only [requireClient, bind_eq_ok, raiseIf_eq_ok, pure_eq_ok] at h ⊢
  obtain ⟨_, hid, _, hclient, rfl⟩ := h
  exact ⟨_, validateIdentifier_self hid, (), hclient, rfl⟩

/-- A library for texts without sensitive words. -/
def exampleLibrary : Library where
  words := .known
  floats := .verbatim
  str _ := ""
  sha256 _ := "e3b0c44298fc1c149afbf4c8996fb92427ae41e4649b934ca495991b7852b855"
  casefold := Text.lower
  fromIso := some
  hasClient clientId := clientId == "shire"

end WaitLocalAgent.AgentPlatform
