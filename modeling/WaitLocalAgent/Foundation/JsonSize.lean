import WaitLocalAgent.Foundation.JsonSort

/-! # Sizes of JSON texts

Bounds on the length of what `json.dumps` writes, from below by the texts of the value and from
above by its size. -/

namespace WaitLocalAgent.Foundation

theorem utf8ByteSize_ofList (cs : List Char) :
    (String.ofList cs).utf8ByteSize = (cs.map Char.utf8Size).sum := by
  induction cs with
  | nil => rfl
  | cons c cs ih =>
      have hcons : String.ofList (c :: cs) = String.singleton c ++ String.ofList cs := by
        rw [← String.toList_inj]
        simp
      rw [hcons, String.utf8ByteSize_append, String.utf8ByteSize_singleton, ih]
      simp

theorem utf8ByteSize_eq (s : String) : s.utf8ByteSize = (s.toList.map Char.utf8Size).sum := by
  rw [← utf8ByteSize_ofList, String.ofList_toList]

theorem length_le_utf8ByteSize (cs : List Char) :
    cs.length ≤ (String.ofList cs).utf8ByteSize := by
  rw [utf8ByteSize_ofList]
  induction cs with
  | nil => simp
  | cons c cs ih =>
      have hsize := c.utf8Size_pos
      simp only [List.map_cons, List.sum_cons, List.length_cons]
      omega

def Printable (c : Char) : Prop := 32 ≤ c.toNat ∧ c.toNat ≤ 126

instance : DecidablePred Printable := fun _ => inferInstanceAs (Decidable (_ ∧ _))

theorem utf8ByteSize_of_printable {cs : List Char} (h : ∀ c ∈ cs, Printable c) :
    (String.ofList cs).utf8ByteSize = cs.length := by
  rw [utf8ByteSize_ofList]
  induction cs with
  | nil => rfl
  | cons c cs ih =>
      have hsize : c.utf8Size = 1 := by
        have hc : c.val.toNat ≤ 126 := (h c List.mem_cons_self).2
        rw [Char.utf8Size_eq_one_iff, UInt32.le_iff_toNat_le]
        exact hc.trans (by decide)
      simp only [List.map_cons, List.sum_cons, List.length_cons, hsize,
        ih fun d hd => h d (List.mem_cons_of_mem c hd)]
      omega

namespace JsonValue

theorem printable_hexDigit (n : ℕ) : Printable (hexDigit (n % 16)) := by
  have hdigits : ∀ d < 16, Printable (hexDigit d) := by decide
  exact hdigits _ (Nat.mod_lt _ (by omega))

theorem printable_unicodeEscape (n : ℕ) : ∀ c ∈ unicodeEscape n, Printable c := by
  simp only [unicodeEscape, List.mem_cons, List.not_mem_nil, or_false, forall_eq_or_imp, forall_eq]
  exact ⟨by decide, by decide, printable_hexDigit _, printable_hexDigit _, printable_hexDigit _,
    printable_hexDigit _⟩

theorem printable_escapeChar (d : Char) : ∀ c ∈ escapeChar d, Printable c := by
  unfold escapeChar
  split
  · decide
  split
  · decide
  split
  · decide
  split
  · decide
  split
  · decide
  split
  · decide
  split
  · decide
  split
  · rename_i hprintable
    simpa [Printable] using hprintable
  split
  · exact printable_unicodeEscape _
  · intro c hc
    rcases List.mem_append.mp hc with hc | hc
    · exact printable_unicodeEscape _ c hc
    · exact printable_unicodeEscape _ c hc

theorem printable_writeText (s : String) : ∀ c ∈ writeText s, Printable c := by
  intro c hc
  simp only [writeText, List.mem_append, List.mem_cons, List.mem_flatMap, List.not_mem_nil,
    or_false] at hc
  rcases hc with (rfl | ⟨d, -, hc⟩) | rfl
  · decide
  · exact printable_escapeChar d c hc
  · decide

theorem printable_writeInt (n : ℤ) : ∀ c ∈ writeInt n, Printable c := by
  have hdigit : ∀ c : Char, c.isDigit = true → Printable c := by
    intro c hc
    simp only [Char.isDigit, Bool.and_eq_true, decide_eq_true_eq, UInt32.le_iff_toNat_le] at hc
    have hnat : c.toNat = c.val.toNat := rfl
    have hlow : '0'.val.toNat = 48 := rfl
    have hhigh : '9'.val.toNat = 57 := rfl
    unfold Printable
    omega
  have hdigits : ∀ c ∈ Nat.toDigits 10 n.natAbs, Printable c :=
    fun c hc => hdigit c (Nat.isDigit_of_mem_toDigits (by omega) (by omega) hc)
  rw [writeInt]
  split
  · intro c hc
    rcases List.mem_cons.mp hc with rfl | hc
    · decide
    · exact hdigits c hc
  · exact hdigits

/-- A character is escaped to at least as many characters as it has bytes, and at most six times as
many. -/
theorem length_escapeChar (c : Char) :
    c.utf8Size ≤ (escapeChar c).length ∧ (escapeChar c).length ≤ 6 * c.utf8Size := by
  have hnat : c.toNat = c.val.toNat := rfl
  have hone := Char.utf8Size_eq_one_iff (c := c)
  have hfour := Char.utf8Size_eq_four_iff (c := c)
  simp only [UInt32.le_iff_toNat_le, UInt32.lt_iff_toNat_lt, UInt32.reduceToNat, ← hnat]
    at hone hfour
  have hle := c.utf8Size_le_four
  have hpos := c.utf8Size_pos
  have hplain : c.toNat ≤ 127 → c.utf8Size = 1 := hone.mpr
  unfold escapeChar
  split
  · subst c; decide
  split
  · subst c; decide
  split
  · subst c; decide
  split
  · subst c; decide
  split
  · subst c; decide
  split
  · subst c; decide
  split
  · subst c; decide
  split
  · rename_i hprintable
    simp only [List.length_cons, List.length_nil, hplain (by omega)]
    omega
  split
  · simp only [unicodeEscape, List.length_cons, List.length_nil]
    omega
  · simp only [unicodeEscape, List.length_append, List.length_cons, List.length_nil]
    rw [hfour.mpr (by omega)]
    omega

theorem length_writeText (s : String) :
    s.utf8ByteSize + 2 ≤ (writeText s).length ∧ (writeText s).length ≤ 6 * s.utf8ByteSize + 2 := by
  rw [utf8ByteSize_eq, writeText]
  induction s.toList with
  | nil => simp
  | cons c cs ih =>
      have hc := length_escapeChar c
      simp only [List.flatMap_cons, List.length_append, List.length_cons, List.length_nil,
        List.cons_append, List.map_cons, List.sum_cons] at ih ⊢
      omega

mutual

/-- The bytes of the texts in a value, keys left out. -/
def textBytes : JsonValue → ℕ
  | text s => s.utf8ByteSize
  | array vs => textBytesItems vs
  | object fs => textBytesFields fs
  | _ => 0

def textBytesItems : List JsonValue → ℕ
  | [] => 0
  | v :: vs => v.textBytes + textBytesItems vs

def textBytesFields : List (String × JsonValue) → ℕ
  | [] => 0
  | (_, v) :: fs => v.textBytes + textBytesFields fs

end

mutual

/-- As many characters as a value may take up. -/
def bulk : JsonValue → ℕ
  | null => 4
  | bool _ => 5
  | int n => (writeInt n).length
  | float repr => (writeFloat repr).length
  | text s => 6 * s.utf8ByteSize + 2
  | array vs => bulkItems vs + 2
  | object fs => bulkFields fs + 2

def bulkItems : List JsonValue → ℕ
  | [] => 0
  | v :: vs => v.bulk + 1 + bulkItems vs

def bulkFields : List (String × JsonValue) → ℕ
  | [] => 0
  | (k, v) :: fs => 6 * k.utf8ByteSize + v.bulk + 4 + bulkFields fs

end

section Write

variable (sep : Separators)

mutual

theorem textBytes_le : ∀ v : JsonValue, v.textBytes ≤ (write sep v).length
  | null | bool _ | int _ | float _ => by simp [textBytes]
  | text s => by
      have hlength := (length_writeText s).1
      simp only [textBytes, write]
      omega
  | array [] => by simp [textBytes, textBytesItems]
  | array (v :: vs) => by
      have hv := textBytes_le v
      have hvs := textBytesItems_le vs
      simp only [textBytes, textBytesItems, write, List.length_append, List.length_cons]
      omega
  | object [] => by simp [textBytes, textBytesFields]
  | object ((k, v) :: fs) => by
      have hv := textBytes_le v
      have hfs := textBytesFields_le fs
      simp only [textBytes, textBytesFields, write, List.length_append, List.length_cons]
      omega

theorem textBytesItems_le : ∀ vs : List JsonValue,
    textBytesItems vs ≤ (writeItems sep vs).length
  | [] => by simp [textBytesItems]
  | v :: vs => by
      have hv := textBytes_le v
      have hvs := textBytesItems_le vs
      simp only [textBytesItems, writeItems, List.length_append]
      omega

theorem textBytesFields_le : ∀ fs : List (String × JsonValue),
    textBytesFields fs ≤ (writeFields sep fs).length
  | [] => by simp [textBytesFields]
  | (k, v) :: fs => by
      have hv := textBytes_le v
      have hfs := textBytesFields_le fs
      simp only [textBytesFields, writeFields, List.length_append]
      omega

end

variable {sep}

theorem printable_append {cs ds : List Char} (hcs : ∀ c ∈ cs, Printable c)
    (hds : ∀ c ∈ ds, Printable c) : ∀ c ∈ cs ++ ds, Printable c :=
  fun c hc => (List.mem_append.mp hc).elim (hcs c) (hds c)

mutual

/-- What is written of a value without floats is printable. -/
theorem printable_write (hitem : ∀ c ∈ sep.item, Printable c) (hkey : ∀ c ∈ sep.key, Printable c) :
    ∀ {v : JsonValue}, v.floatless = true → ∀ c ∈ write sep v, Printable c
  | null, _ | bool true, _ | bool false, _ => by rw [write]; decide
  | int n, _ => by
      rw [write]
      exact printable_writeInt n
  | text s, _ => by
      rw [write]
      exact printable_writeText s
  | array [], _ => by rw [write]; decide
  | array (v :: vs), h => by
      simp only [floatless, floatlessItems, Bool.and_eq_true] at h
      rw [write]
      refine printable_append (List.forall_mem_cons.mpr ⟨by decide, ?_⟩) ?_
      · exact printable_write hitem hkey h.1
      · exact printable_writeItems hitem hkey h.2
  | object [], _ => by rw [write]; decide
  | object ((k, v) :: fs), h => by
      simp only [floatless, floatlessFields, Bool.and_eq_true] at h
      rw [write]
      refine printable_append (printable_append (printable_append
        (List.forall_mem_cons.mpr ⟨by decide, printable_writeText k⟩) hkey) ?_) ?_
      · exact printable_write hitem hkey h.1
      · exact printable_writeFields hitem hkey h.2

theorem printable_writeItems (hitem : ∀ c ∈ sep.item, Printable c)
    (hkey : ∀ c ∈ sep.key, Printable c) : ∀ {vs : List JsonValue},
      floatlessItems vs = true → ∀ c ∈ writeItems sep vs, Printable c
  | [], _ => by rw [writeItems]; decide
  | v :: vs, h => by
      simp only [floatlessItems, Bool.and_eq_true] at h
      rw [writeItems]
      exact printable_append (printable_append hitem (printable_write hitem hkey h.1))
        (printable_writeItems hitem hkey h.2)

theorem printable_writeFields (hitem : ∀ c ∈ sep.item, Printable c)
    (hkey : ∀ c ∈ sep.key, Printable c) : ∀ {fs : List (String × JsonValue)},
      floatlessFields fs = true → ∀ c ∈ writeFields sep fs, Printable c
  | [], _ => by rw [writeFields]; decide
  | (k, v) :: fs, h => by
      simp only [floatlessFields, Bool.and_eq_true] at h
      rw [writeFields]
      exact printable_append (printable_append (printable_append (printable_append hitem
        (printable_writeText k)) hkey) (printable_write hitem hkey h.1))
          (printable_writeFields hitem hkey h.2)

end

mutual

theorem length_write_le (hitem : sep.item.length = 1) (hkey : sep.key.length = 1) :
    ∀ v : JsonValue, (write sep v).length ≤ v.bulk
  | null | bool true | bool false | int _ | float _ => by simp [bulk, write]
  | text s => by
      simp only [bulk, write]
      exact (length_writeText s).2
  | array [] => by simp [bulk, bulkItems, write]
  | array (v :: vs) => by
      have hv := length_write_le hitem hkey v
      have hvs := length_writeItems_le hitem hkey vs
      simp only [bulk, bulkItems, write, List.length_append, List.length_cons]
      omega
  | object [] => by simp [bulk, bulkFields, write]
  | object ((k, v) :: fs) => by
      have hk := (length_writeText k).2
      have hv := length_write_le hitem hkey v
      have hfs := length_writeFields_le hitem hkey fs
      simp only [bulk, bulkFields, write, List.length_append, List.length_cons, hkey]
      omega

theorem length_writeItems_le (hitem : sep.item.length = 1) (hkey : sep.key.length = 1) :
    ∀ vs : List JsonValue, (writeItems sep vs).length ≤ bulkItems vs + 1
  | [] => by simp [bulkItems, writeItems]
  | v :: vs => by
      have hv := length_write_le hitem hkey v
      have hvs := length_writeItems_le hitem hkey vs
      simp only [bulkItems, writeItems, List.length_append, hitem]
      omega

theorem length_writeFields_le (hitem : sep.item.length = 1) (hkey : sep.key.length = 1) :
    ∀ fs : List (String × JsonValue), (writeFields sep fs).length ≤ bulkFields fs + 1
  | [] => by simp [bulkFields, writeFields]
  | (k, v) :: fs => by
      have hk := (length_writeText k).2
      have hv := length_write_le hitem hkey v
      have hfs := length_writeFields_le hitem hkey fs
      simp only [bulkFields, writeFields, List.length_append, hitem, hkey]
      omega

end

end Write

theorem textBytesFields_eq (fs : List (String × JsonValue)) :
    textBytesFields fs = (fs.map fun f => f.2.textBytes).sum := by
  induction fs with
  | nil => rfl
  | cons f fs ih => simp [textBytesFields, ih]

theorem bulkFields_eq (fs : List (String × JsonValue)) :
    bulkFields fs = (fs.map fun f => 6 * f.1.utf8ByteSize + f.2.bulk + 4).sum := by
  induction fs with
  | nil => rfl
  | cons f fs ih => simp [bulkFields, ih]

theorem bulkItems_eq (vs : List JsonValue) :
    bulkItems vs = (vs.map fun v => v.bulk + 1).sum := by
  induction vs with
  | nil => rfl
  | cons v vs ih => simp [bulkItems, ih]

theorem textBytes_sortKeys (v : JsonValue) : v.sortKeys.textBytes = v.textBytes := by
  induction v with
  | null | bool _ | int _ | float _ | text _ => simp [sortKeys]
  | array vs ih =>
      simp only [sortKeys, textBytes]
      induction vs with
      | nil => rfl
      | cons v vs ihvs => simp_all [sortItems, textBytesItems]
  | object fs ih =>
      rw [sortKeys_object, textBytes, textBytes, textBytesFields_eq, textBytesFields_eq,
        ((byKey_perm _).map _).sum_nat, sortFields_eq_map, List.map_map]
      exact congrArg List.sum (List.map_congr_left ih)

theorem floatless_sortKeys {v : JsonValue} (h : v.floatless = true) :
    v.sortKeys.floatless = true := by
  rwa [floatless_eq_floatsMeet, floatsMeet_sortKeys, ← floatless_eq_floatsMeet]

theorem bulk_sortKeys (v : JsonValue) : v.sortKeys.bulk = v.bulk := by
  induction v with
  | null | bool _ | int _ | float _ | text _ => simp [sortKeys]
  | array vs ih =>
      rw [sortKeys, bulk, bulk, bulkItems_eq, bulkItems_eq, sortItems_eq_map, List.map_map]
      refine congrArg (List.sum · + 2) (List.map_congr_left fun v hv => ?_)
      rw [Function.comp, ih v hv]
  | object fs ih =>
      rw [sortKeys_object, bulk, bulk, bulkFields_eq, bulkFields_eq,
        ((byKey_perm _).map _).sum_nat, sortFields_eq_map, List.map_map]
      refine congrArg (List.sum · + 2) (List.map_congr_left fun f hf => ?_)
      simp [ih f hf]

end JsonValue

end WaitLocalAgent.Foundation
