import Mathlib

/-! # Decimal digits

The digits that `\d` of the `re` module matches and that `int` reads, of which those of ASCII are
known. -/

namespace WaitLocalAgent.Foundation

/-- The digits of a Unicode database with their values. -/
structure DecimalDigits where
  value? : Char → Option ℕ
  ascii : ∀ c, c.toNat < 128 → value? c = if c.isDigit then some (c.toNat - 48) else none

namespace DecimalDigits

variable (d : DecimalDigits)

def isDecimal (c : Char) : Bool := (d.value? c).isSome

def read (cs : List Char) : ℕ := cs.foldl (fun n c => 10 * n + (d.value? c).getD 0) 0

/-- `sys.int_info.default_max_str_digits`. -/
def maxStrDigits : ℕ := 4300

/-- `int(digits)`, with the message of its `ValueError`. -/
def int (cs : List Char) : Except String ℕ :=
  if maxStrDigits < cs.length then
    .error (s!"Exceeds the limit ({maxStrDigits} digits) for integer string conversion: " ++
      s!"value has {cs.length} digits; use sys.set_int_max_str_digits() to increase the limit")
  else .ok (d.read cs)

theorem exists_int_iff {cs : List Char} :
    (∃ n, d.int cs = .ok n) ↔ cs.length ≤ maxStrDigits := by
  rw [int]
  split
  · next h => simpa using h
  · next h => simpa using h

variable {d}

theorem isDigit_iff {c : Char} : c.isDigit = true ↔ 48 ≤ c.toNat ∧ c.toNat ≤ 57 := by
  simp only [Char.isDigit, Bool.and_eq_true, decide_eq_true_eq, ge_iff_le,
    UInt32.le_iff_toNat_le]
  rfl

theorem isDecimal_ascii {c : Char} (h : c.toNat < 128) : d.isDecimal c = c.isDigit := by
  rw [isDecimal, d.ascii c h]
  cases c.isDigit <;> rfl

theorem isDecimal_of_isDigit {c : Char} (h : c.isDigit = true) :
    d.isDecimal c = true := by
  have hbounds := isDigit_iff.mp h
  rw [isDecimal_ascii (by omega), h]

def zeros : List ℕ :=
  [0x30, 0x660, 0x6f0, 0x7c0, 0x966, 0x9e6, 0xa66, 0xae6, 0xb66, 0xbe6, 0xc66, 0xce6, 0xd66, 0xde6,
    0xe50, 0xed0, 0xf20, 0x1040, 0x1090, 0x17e0, 0x1810, 0x1946, 0x19d0, 0x1a80, 0x1a90, 0x1b50,
    0x1bb0, 0x1c40, 0x1c50, 0xa620, 0xa8d0, 0xa900, 0xa9d0, 0xa9f0, 0xaa50, 0xabf0, 0xff10, 0x104a0,
    0x10d30, 0x11066, 0x110f0, 0x11136, 0x111d0, 0x112f0, 0x11450, 0x114d0, 0x11650, 0x116c0,
    0x11730, 0x118e0, 0x11950, 0x11c50, 0x11d50, 0x11da0, 0x11f50, 0x16a60, 0x16ac0, 0x16b50,
    0x1d7ce, 0x1d7d8, 0x1d7e2, 0x1d7ec, 0x1d7f6, 0x1e140, 0x1e2f0, 0x1e4f0, 0x1e950, 0x1fbf0]

def unicodeValue? (n : ℕ) : Option ℕ :=
  (zeros.find? fun first => first ≤ n && n < first + 10).map (n - ·)

theorem unicodeValue?_ascii : ∀ n < 128,
    unicodeValue? n = if 48 ≤ n ∧ n ≤ 57 then some (n - 48) else none := by
  decide

def unicode : DecimalDigits where
  value? c := unicodeValue? c.toNat
  ascii c hc := by
    rw [unicodeValue?_ascii c.toNat hc]
    simp only [isDigit_iff]

end DecimalDigits

end WaitLocalAgent.Foundation
