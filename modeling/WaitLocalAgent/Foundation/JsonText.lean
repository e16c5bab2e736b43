import WaitLocalAgent.Foundation.Text

/-! # JSON texts

What `json.dumps` writes, with the separators it is given, and what `json.loads` reads. A float is
given by its `repr`. -/

namespace WaitLocalAgent.Foundation

inductive JsonValue where
  | null
  | bool (value : Bool)
  | int (value : ℤ)
  | float (repr : String)
  | text (value : String)
  | array (items : List JsonValue)
  | object (fields : List (String × JsonValue))

namespace JsonValue

@[induction_eliminator]
theorem induct {P : JsonValue → Prop} (null : P null) (bool : ∀ b, P (bool b))
    (int : ∀ n, P (int n)) (float : ∀ r, P (float r)) (text : ∀ s, P (text s))
    (array : ∀ vs, (∀ v ∈ vs, P v) → P (array vs))
    (object : ∀ fs, (∀ f ∈ fs, P f.2) → P (object fs)) : ∀ v, P v :=
  JsonValue.rec null bool int float text array object (fun _ hv => nomatch hv)
    (fun _ _ hv hvs => List.forall_mem_cons.mpr ⟨hv, hvs⟩) (fun _ hf => nomatch hf)
    (fun _ _ hf hfs => List.forall_mem_cons.mpr ⟨hf, hfs⟩) (fun _ _ hv => hv)

/-- `fields[key]`, where a missing key is no value. -/
def get? (fields : List (String × JsonValue)) (key : String) : Option JsonValue :=
  (fields.find? fun entry => entry.1 = key).map Prod.snd

def get (fields : List (String × JsonValue)) (key : String) : JsonValue :=
  (get? fields key).getD null

def set (fields : List (String × JsonValue)) (key : String) (value : JsonValue) :
    List (String × JsonValue) :=
  if fields.any fun entry => entry.1 = key then
    fields.map fun entry => if entry.1 = key then (key, value) else entry
  else fields ++ [(key, value)]

/-! ## Writing -/

def hexDigit (d : ℕ) : Char := if d < 10 then Char.ofNat (48 + d) else Char.ofNat (87 + d)

/-- `\uXXXX`. -/
def unicodeEscape (n : ℕ) : List Char :=
  ['\\', 'u', hexDigit (n / 4096 % 16), hexDigit (n / 256 % 16), hexDigit (n / 16 % 16),
    hexDigit (n % 16)]

/-- A character under `ensure_ascii=True`. -/
def escapeChar (c : Char) : List Char :=
  if c = '"' then ['\\', '"']
  else if c = '\\' then ['\\', '\\']
  else if c = '\n' then ['\\', 'n']
  else if c = '\r' then ['\\', 'r']
  else if c = '\t' then ['\\', 't']
  else if c = '\x0c' then ['\\', 'f']
  else if c = '\x08' then ['\\', 'b']
  else if 32 ≤ c.toNat ∧ c.toNat ≤ 126 then [c]
  else if c.toNat < 65536 then unicodeEscape c.toNat
  else
    unicodeEscape (55296 + (c.toNat - 65536) / 1024) ++
      unicodeEscape (56320 + (c.toNat - 65536) % 1024)

def writeText (s : String) : List Char := '"' :: s.toList.flatMap escapeChar ++ ['"']

def writeInt (n : ℤ) : List Char :=
  if n < 0 then '-' :: Nat.toDigits 10 n.natAbs else Nat.toDigits 10 n.natAbs

/-- A float, whose `repr` names the values that are no numbers. -/
def writeFloat (repr : String) : List Char :=
  if repr = "nan" then "NaN".toList
  else if repr = "inf" then "Infinity".toList
  else if repr = "-inf" then "-Infinity".toList
  else repr.toList

structure Separators where
  item : List Char
  key : List Char

mutual

def write (sep : Separators) : JsonValue → List Char
  | null => "null".toList
  | bool true => "true".toList
  | bool false => "false".toList
  | int n => writeInt n
  | float repr => writeFloat repr
  | text s => writeText s
  | array [] => ['[', ']']
  | array (v :: vs) => '[' :: write sep v ++ writeItems sep vs
  | object [] => ['{', '}']
  | object ((k, v) :: fs) => '{' :: writeText k ++ sep.key ++ write sep v ++ writeFields sep fs

def writeItems (sep : Separators) : List JsonValue → List Char
  | [] => [']']
  | v :: vs => sep.item ++ write sep v ++ writeItems sep vs

def writeFields (sep : Separators) : List (String × JsonValue) → List Char
  | [] => ['}']
  | (k, v) :: fs => sep.item ++ writeText k ++ sep.key ++ write sep v ++ writeFields sep fs

end

/-- A character under `ensure_ascii=False`. -/
def escapeControl (c : Char) : List Char :=
  if c = '"' then ['\\', '"']
  else if c = '\\' then ['\\', '\\']
  else if c = '\n' then ['\\', 'n']
  else if c = '\r' then ['\\', 'r']
  else if c = '\t' then ['\\', 't']
  else if c = '\x0c' then ['\\', 'f']
  else if c = '\x08' then ['\\', 'b']
  else if c.toNat < 32 then unicodeEscape c.toNat
  else [c]

/-- Separators, and how characters are escaped. -/
structure Format extends Separators where
  escape : Char → List Char

def Format.text (fmt : Format) (s : String) : List Char :=
  '"' :: s.toList.flatMap fmt.escape ++ ['"']

mutual

def writeAs (fmt : Format) : JsonValue → List Char
  | null => "null".toList
  | bool true => "true".toList
  | bool false => "false".toList
  | int n => writeInt n
  | float repr => writeFloat repr
  | text s => fmt.text s
  | array [] => ['[', ']']
  | array (v :: vs) => '[' :: writeAs fmt v ++ writeItemsAs fmt vs
  | object [] => ['{', '}']
  | object ((k, v) :: fs) => '{' :: fmt.text k ++ fmt.key ++ writeAs fmt v ++ writeFieldsAs fmt fs

def writeItemsAs (fmt : Format) : List JsonValue → List Char
  | [] => [']']
  | v :: vs => fmt.item ++ writeAs fmt v ++ writeItemsAs fmt vs

def writeFieldsAs (fmt : Format) : List (String × JsonValue) → List Char
  | [] => ['}']
  | (k, v) :: fs => fmt.item ++ fmt.text k ++ fmt.key ++ writeAs fmt v ++ writeFieldsAs fmt fs

end

/-- `ensure_ascii=True`. -/
def Separators.ascii (sep : Separators) : Format := { sep with escape := escapeChar }

/-- `ensure_ascii=False`. -/
def Separators.unicode (sep : Separators) : Format := { sep with escape := escapeControl }

mutual

theorem writeAs_ascii (sep : Separators) : ∀ v : JsonValue, writeAs sep.ascii v = write sep v
  | null | bool true | bool false | int _ | float _ | text _ | array [] | object [] => by
      simp [writeAs, write, Separators.ascii, Format.text, writeText]
  | array (v :: vs) => by
      rw [writeAs, write, writeAs_ascii sep v, writeItemsAs_ascii sep vs]
  | object ((k, v) :: fs) => by
      rw [writeAs, write, writeAs_ascii sep v, writeFieldsAs_ascii sep fs]
      rfl

theorem writeItemsAs_ascii (sep : Separators) : ∀ vs : List JsonValue,
    writeItemsAs sep.ascii vs = writeItems sep vs
  | [] => rfl
  | v :: vs => by
      rw [writeItemsAs, writeItems, writeAs_ascii sep v, writeItemsAs_ascii sep vs]
      rfl

theorem writeFieldsAs_ascii (sep : Separators) : ∀ fs : List (String × JsonValue),
    writeFieldsAs sep.ascii fs = writeFields sep fs
  | [] => rfl
  | (k, v) :: fs => by
      rw [writeFieldsAs, writeFields, writeAs_ascii sep v, writeFieldsAs_ascii sep fs]
      rfl

end

mutual

/-- `sort_keys=True`. -/
def sortKeys : JsonValue → JsonValue
  | array vs => array (sortItems vs)
  | object fs => object ((sortFields fs).insertionSort fun f g => f.1 ≤ g.1)
  | v => v

def sortItems : List JsonValue → List JsonValue
  | [] => []
  | v :: vs => sortKeys v :: sortItems vs

def sortFields : List (String × JsonValue) → List (String × JsonValue)
  | [] => []
  | (k, v) :: fs => (k, sortKeys v) :: sortFields fs

end

mutual

/-- No float in the value is infinite or no number. -/
def finite : JsonValue → Bool
  | float repr => !(["nan", "inf", "-inf"].contains repr)
  | array vs => finiteItems vs
  | object fs => finiteFields fs
  | _ => true

def finiteItems : List JsonValue → Bool
  | [] => true
  | v :: vs => v.finite && finiteItems vs

def finiteFields : List (String × JsonValue) → Bool
  | [] => true
  | (_, v) :: fs => v.finite && finiteFields fs

end

def dumps (v : JsonValue) : String := .ofList (v.write ⟨[',', ' '], [':', ' ']⟩)

/-! ## Reading -/

def isBlank (c : Char) : Bool := c = ' ' || c = '\t' || c = '\n' || c = '\r'

def skipBlanks (cs : List Char) : List Char := cs.dropWhile isBlank

def hexValue? (c : Char) : Option ℕ :=
  if '0' ≤ c ∧ c ≤ '9' then some (c.toNat - 48)
  else if 'a' ≤ c ∧ c ≤ 'f' then some (c.toNat - 87)
  else if 'A' ≤ c ∧ c ≤ 'F' then some (c.toNat - 55)
  else none

/-- Four hexadecimal digits. -/
def hex4? : List Char → Option (ℕ × List Char)
  | a :: b :: c :: d :: rest =>
      match hexValue? a, hexValue? b, hexValue? c, hexValue? d with
      | some a, some b, some c, some d => some (4096 * a + 256 * b + 16 * c + d, rest)
      | _, _, _, _ => none
  | _ => none

/-- The second half of a surrogate pair. -/
def readPair (high : ℕ) : List Char → Option (Char × List Char)
  | '\\' :: 'u' :: rest =>
      match hex4? rest with
      | none => none
      | some (low, rest) =>
          if 56320 ≤ low ∧ low < 57344 then
            some (Char.ofNat (65536 + (high - 55296) * 1024 + (low - 56320)), rest)
          else none
  | _ => none

/-- What follows `\u`. Half of a surrogate pair is no character. -/
def readUnicode (cs : List Char) : Option (Char × List Char) :=
  match hex4? cs with
  | none => none
  | some (n, rest) =>
      if 55296 ≤ n ∧ n < 56320 then readPair n rest
      else if 56320 ≤ n ∧ n < 57344 then none
      else some (Char.ofNat n, rest)

def readEscape : List Char → Option (Char × List Char)
  | '"' :: rest => some ('"', rest)
  | '\\' :: rest => some ('\\', rest)
  | '/' :: rest => some ('/', rest)
  | 'b' :: rest => some ('\x08', rest)
  | 'f' :: rest => some ('\x0c', rest)
  | 'n' :: rest => some ('\n', rest)
  | 'r' :: rest => some ('\r', rest)
  | 't' :: rest => some ('\t', rest)
  | 'u' :: rest => readUnicode rest
  | _ => none

/-- The characters up to the closing quote, at most `fuel` of them. -/
def readText : ℕ → List Char → Option (List Char × List Char)
  | 0, _ => none
  | _ + 1, [] => none
  | fuel + 1, c :: cs =>
      if c = '"' then some ([], cs)
      else if c = '\\' then
        match readEscape cs with
        | none => none
        | some (c, rest) => (readText fuel rest).map fun (chars, rest) => (c :: chars, rest)
      else if c.toNat < 32 then none
      else (readText fuel cs).map fun (chars, rest) => (c :: chars, rest)

/-- The digits after a decimal point. -/
def readFraction : List Char → List Char × List Char
  | '.' :: cs =>
      if (cs.takeWhile Char.isDigit).isEmpty then ([], '.' :: cs)
      else ('.' :: cs.takeWhile Char.isDigit, cs.dropWhile Char.isDigit)
  | cs => ([], cs)

def readSign : List Char → List Char × List Char
  | c :: cs => if c = '+' || c = '-' then ([c], cs) else ([], c :: cs)
  | [] => ([], [])

def readExponent : List Char → List Char × List Char
  | c :: cs =>
      if c = 'e' || c = 'E' then
        let (sign, rest) := readSign cs
        if (rest.takeWhile Char.isDigit).isEmpty then ([], c :: cs)
        else (c :: sign ++ rest.takeWhile Char.isDigit, rest.dropWhile Char.isDigit)
      else ([], c :: cs)
  | [] => ([], [])

def readDigits : List Char → Option (List Char × List Char)
  | [] => none
  | c :: cs =>
      if c = '0' then some (['0'], cs)
      else if c.isDigit then some (c :: cs.takeWhile Char.isDigit, cs.dropWhile Char.isDigit)
      else none

/-- A number without its sign; `repr` is that of the float that a text stands for. -/
def readNumber (repr : String → String) (negative : Bool) (cs : List Char) :
    Option (JsonValue × List Char) :=
  match readDigits cs with
  | none => none
  | some (digits, rest) =>
      let (fraction, rest) := readFraction rest
      let (exponent, rest) := readExponent rest
      if fraction.isEmpty && exponent.isEmpty then
        let n : ℤ := Nat.ofDigitChars 10 digits 0
        some (int (if negative then -n else n), rest)
      else
        let sign := if negative then ['-'] else []
        some (float (repr (.ofList (sign ++ digits ++ fraction ++ exponent))), rest)

def readLiteral (word : String) (v : JsonValue) (cs : List Char) : Option (JsonValue × List Char) :=
  if word.toList.isPrefixOf cs then some (v, cs.drop word.toList.length) else none

mutual

def read (repr : String → String) : ℕ → List Char → Option (JsonValue × List Char)
  | 0, _ => none
  | fuel + 1, cs =>
      match cs with
      | [] => none
      | '"' :: cs => (readText (cs.length + 1) cs).map fun (s, rest) => (text (.ofList s), rest)
      | '[' :: cs =>
          match skipBlanks cs with
          | [] => none
          | c :: cs =>
              if c = ']' then some (array [], cs)
              else (readItems repr fuel (c :: cs)).map fun (vs, rest) => (array vs, rest)
      | '{' :: cs =>
          match skipBlanks cs with
          | [] => none
          | c :: cs =>
              if c = '}' then some (object [], cs)
              else (readFields repr fuel (c :: cs)).map fun (fs, rest) => (object fs, rest)
      | 'n' :: _ => readLiteral "null" null cs
      | 't' :: _ => readLiteral "true" (bool true) cs
      | 'f' :: _ => readLiteral "false" (bool false) cs
      | 'N' :: _ => readLiteral "NaN" (float "nan") cs
      | 'I' :: _ => readLiteral "Infinity" (float "inf") cs
      | '-' :: 'I' :: _ => readLiteral "-Infinity" (float "-inf") cs
      | '-' :: cs => readNumber repr true cs
      | cs => readNumber repr false cs

/-- Items up to the closing bracket. -/
def readItems (repr : String → String) : ℕ → List Char → Option (List JsonValue × List Char)
  | 0, _ => none
  | fuel + 1, cs =>
      match read repr fuel cs with
      | none => none
      | some (v, rest) =>
          match skipBlanks rest with
          | [] => none
          | c :: rest =>
              if c = ']' then some ([v], rest)
              else if c = ',' then
                (readItems repr fuel (skipBlanks rest)).map fun (vs, rest) => (v :: vs, rest)
              else none

/-- Fields up to the closing brace. -/
def readFields (repr : String → String) :
    ℕ → List Char → Option (List (String × JsonValue) × List Char)
  | 0, _ => none
  | _ + 1, [] => none
  | fuel + 1, quote :: cs =>
      if quote = '"' then
        match readText (cs.length + 1) cs with
        | none => none
        | some (k, rest) =>
            match skipBlanks rest with
            | [] => none
            | colon :: rest =>
                if colon = ':' then
                  match read repr fuel (skipBlanks rest) with
                  | none => none
                  | some (v, rest) =>
                      match skipBlanks rest with
                      | [] => none
                      | c :: rest =>
                          if c = '}' then some ([(.ofList k, v)], rest)
                          else if c = ',' then
                            (readFields repr fuel (skipBlanks rest)).map fun (fs, rest) =>
                              ((.ofList k, v) :: fs, rest)
                          else none
                else none
      else none

end

/-- `json.loads(text)`, of objects whose keys are distinct. -/
def loads? (repr : String → String) (s : String) : Option JsonValue :=
  match read repr (s.length + 1) (skipBlanks s.toList) with
  | none => none
  | some (v, rest) => if (skipBlanks rest).isEmpty then some v else none

/-! ## Reading what was written -/

theorem hexValue?_hexDigit {d : ℕ} (h : d < 16) : hexValue? (hexDigit d) = some d := by
  revert d
  decide

theorem hex4?_unicodeEscape {n : ℕ} (h : n < 65536) (rest : List Char) :
    hex4? (hexDigit (n / 4096 % 16) :: hexDigit (n / 256 % 16) :: hexDigit (n / 16 % 16) ::
      hexDigit (n % 16) :: rest) = some (n, rest) := by
  rw [hex4?, hexValue?_hexDigit (by omega), hexValue?_hexDigit (by omega),
    hexValue?_hexDigit (by omega), hexValue?_hexDigit (by omega)]
  simp only [Option.some.injEq, Prod.mk.injEq, and_true]
  omega

/-- No character is half of a surrogate pair. -/
theorem not_surrogate (c : Char) : ¬ (55296 ≤ c.toNat ∧ c.toNat < 57344) := by
  have hvalid := c.valid
  simp only [UInt32.isValidChar, Nat.isValidChar] at hvalid
  have hnat : c.toNat = c.val.toNat := rfl
  omega

theorem toNat_lt (c : Char) : c.toNat < 1114112 := by
  have hvalid := c.valid
  simp only [UInt32.isValidChar, Nat.isValidChar] at hvalid
  have hnat : c.toNat = c.val.toNat := rfl
  omega

theorem readUnicode_basic {c : Char} (h : c.toNat < 65536) (rest : List Char) :
    readUnicode ((unicodeEscape c.toNat).drop 2 ++ rest) = some (c, rest) := by
  have hc := not_surrogate c
  simp only [unicodeEscape, List.drop_succ_cons, List.drop_zero, List.cons_append,
    List.nil_append]
  rw [readUnicode, hex4?_unicodeEscape h]
  dsimp only
  rw [if_neg (by omega), if_neg (by omega), Char.ofNat_toNat]

theorem readUnicode_pair {c : Char} (h : ¬ c.toNat < 65536) (rest : List Char) :
    readUnicode ((unicodeEscape (55296 + (c.toNat - 65536) / 1024)).drop 2 ++
      unicodeEscape (56320 + (c.toNat - 65536) % 1024) ++ rest) = some (c, rest) := by
  have hc := toNat_lt c
  simp only [unicodeEscape, List.drop_succ_cons, List.drop_zero, List.cons_append,
    List.nil_append]
  rw [readUnicode, hex4?_unicodeEscape (by omega)]
  dsimp only
  rw [if_pos (by omega), readPair, hex4?_unicodeEscape (by omega)]
  dsimp only
  rw [if_pos (by omega)]
  have hsum : 65536 + (55296 + (c.toNat - 65536) / 1024 - 55296) * 1024 +
      (56320 + (c.toNat - 65536) % 1024 - 56320) = c.toNat := by omega
  rw [hsum, Char.ofNat_toNat]

/-- The escape of a code unit, followed by what completes its character. -/
theorem readText_unicodeEscape {n fuel : ℕ} {c : Char} {cs rest : List Char}
    (h : readUnicode ((unicodeEscape n).drop 2 ++ cs) = some (c, rest)) :
    readText (fuel + 1) (unicodeEscape n ++ cs) =
      (readText fuel rest).map fun (chars, rest) => (c :: chars, rest) := by
  have hread : readText (fuel + 1) (unicodeEscape n ++ cs) =
      match readUnicode ((unicodeEscape n).drop 2 ++ cs) with
      | none => none
      | some (c, rest) => (readText fuel rest).map fun (chars, rest) => (c :: chars, rest) := rfl
  rw [hread, h]

theorem readText_escapeChar (c : Char) (fuel : ℕ) (rest : List Char) :
    readText (fuel + 1) (escapeChar c ++ rest) =
      (readText fuel rest).map fun (chars, rest) => (c :: chars, rest) := by
  unfold escapeChar
  split
  · subst c; rfl
  split
  · subst c; rfl
  split
  · subst c; rfl
  split
  · subst c; rfl
  split
  · subst c; rfl
  split
  · subst c; rfl
  split
  · subst c; rfl
  split
  · rename_i hquote hslash _ _ _ _ _ hplain
    simp only [List.cons_append, List.nil_append, readText, if_neg hquote, if_neg hslash]
    rw [if_neg (by omega)]
  split
  · rename_i hbasic
    exact readText_unicodeEscape (readUnicode_basic hbasic rest)
  · rename_i hbasic
    rw [List.append_assoc]
    refine readText_unicodeEscape ?_
    rw [← List.append_assoc]
    exact readUnicode_pair hbasic rest

theorem readText_escapeControl (c : Char) (fuel : ℕ) (rest : List Char) :
    readText (fuel + 1) (escapeControl c ++ rest) =
      (readText fuel rest).map fun (chars, rest) => (c :: chars, rest) := by
  unfold escapeControl
  split
  · subst c; rfl
  split
  · subst c; rfl
  split
  · subst c; rfl
  split
  · subst c; rfl
  split
  · subst c; rfl
  split
  · subst c; rfl
  split
  · subst c; rfl
  split
  · rename_i hcontrol
    exact readText_unicodeEscape (readUnicode_basic (by omega) rest)
  · rename_i hquote hslash _ _ _ _ _ hplain
    simp only [List.cons_append, List.nil_append, readText, if_neg hquote, if_neg hslash]
    rw [if_neg hplain]

/-- What follows a value within a text. -/
def Ends (rest : List Char) : Prop := rest = [] ∨ ∃ c cs, rest = c :: cs ∧ c ∈ [',', ']', '}']

theorem Ends.not_digit {rest : List Char} (h : Ends rest) :
    rest.takeWhile Char.isDigit = [] ∧ rest.dropWhile Char.isDigit = rest := by
  rcases h with rfl | ⟨c, cs, rfl, hc⟩
  · exact ⟨rfl, rfl⟩
  · simp only [List.mem_cons, List.not_mem_nil, or_false] at hc
    rcases hc with rfl | rfl | rfl <;> exact ⟨rfl, rfl⟩

theorem Ends.readFraction {rest : List Char} (h : Ends rest) : readFraction rest = ([], rest) := by
  rcases h with rfl | ⟨c, cs, rfl, hc⟩
  · rfl
  · simp only [List.mem_cons, List.not_mem_nil, or_false] at hc
    rcases hc with rfl | rfl | rfl <;> rfl

theorem Ends.readExponent {rest : List Char} (h : Ends rest) : readExponent rest = ([], rest) := by
  rcases h with rfl | ⟨c, cs, rfl, hc⟩
  · rfl
  · simp only [List.mem_cons, List.not_mem_nil, or_false] at hc
    rcases hc with rfl | rfl | rfl <;> rfl

theorem head_toDigits {n : ℕ} (h : 0 < n) : (Nat.toDigits 10 n).head? ≠ some '0' := by
  induction n using Nat.strongRecOn with
  | ind n ih =>
      by_cases hn : n < 10
      · rw [Nat.toDigits_of_lt_base hn]
        have hsmall : ∀ n < 10, 0 < n → [n.digitChar].head? ≠ some '0' := by decide
        exact hsmall n hn h
      · rw [Nat.toDigits_of_base_le (by omega) (by omega), List.head?_append]
        have hquotient := ih (n / 10) (by omega) (by omega)
        cases hhead : (Nat.toDigits 10 (n / 10)).head? with
        | none => exact absurd (List.head?_eq_none_iff.mp hhead) Nat.toDigits_ne_nil
        | some c =>
            rw [hhead] at hquotient
            simpa using hquotient

theorem readDigits_toDigits (n : ℕ) {rest : List Char} (hrest : Ends rest) :
    readDigits (Nat.toDigits 10 n ++ rest) = some (Nat.toDigits 10 n, rest) := by
  cases hdigits : Nat.toDigits 10 n with
  | nil => exact absurd hdigits Nat.toDigits_ne_nil
  | cons c cs =>
      have hall : ∀ d ∈ c :: cs, d.isDigit = true := by
        intro d hd
        rw [← hdigits] at hd
        exact Nat.isDigit_of_mem_toDigits (by omega) (by omega) hd
      rw [List.cons_append, readDigits]
      by_cases hc : c = '0'
      · have hzero : n = 0 := by
          by_contra hn
          exact head_toDigits (Nat.pos_of_ne_zero hn) (by rw [hdigits, hc]; rfl)
        subst hzero
        cases hdigits
        rfl
      · rw [if_neg hc, if_pos (hall c List.mem_cons_self)]
        have htake : (cs ++ rest).takeWhile Char.isDigit = cs := by
          rw [List.takeWhile_append_of_pos fun d hd => hall d (List.mem_cons_of_mem c hd),
            hrest.not_digit.1, List.append_nil]
        have hdrop : (cs ++ rest).dropWhile Char.isDigit = rest := by
          rw [List.dropWhile_append_of_pos fun d hd => hall d (List.mem_cons_of_mem c hd),
            hrest.not_digit.2]
        rw [htake, hdrop]

theorem readNumber_toDigits (repr : String → String) (negative : Bool) (n : ℕ) {rest : List Char}
    (hrest : Ends rest) : readNumber repr negative (Nat.toDigits 10 n ++ rest) =
      some (int (if negative then -n else n), rest) := by
  rw [readNumber, readDigits_toDigits n hrest]
  simp [hrest.readFraction, hrest.readExponent]

theorem read_digit (repr : String → String) (fuel : ℕ) {c : Char} (hc : c.isDigit = true)
    (cs : List Char) : read repr (fuel + 1) (c :: cs) = readNumber repr false (c :: cs) := by
  rw [read]
  all_goals
    intros
    simp_all

theorem read_writeInt (repr : String → String) (fuel : ℕ) (n : ℤ) {rest : List Char}
    (hrest : Ends rest) : read repr (fuel + 1) (writeInt n ++ rest) = some (int n, rest) := by
  have hdigit : ∀ d ∈ Nat.toDigits 10 n.natAbs, d.isDigit = true :=
    fun d hd => Nat.isDigit_of_mem_toDigits (by omega) (by omega) hd
  cases hdigits : Nat.toDigits 10 n.natAbs with
  | nil => exact absurd hdigits Nat.toDigits_ne_nil
  | cons c cs =>
      have hc : c.isDigit = true := hdigit c (by rw [hdigits]; exact List.mem_cons_self)
      rw [writeInt]
      by_cases hn : n < 0
      · have hread := readNumber_toDigits repr true n.natAbs hrest
        rw [if_pos hn, List.cons_append, hdigits]
        rw [hdigits] at hread
        rw [List.cons_append] at hread ⊢
        rw [read, hread]
        · have habs : -(n.natAbs : ℤ) = n := by omega
          simp only [if_pos, habs]
        all_goals
          intros
          simp_all
      · have hread := readNumber_toDigits repr false n.natAbs hrest
        rw [if_neg hn, hdigits]
        rw [hdigits] at hread
        rw [List.cons_append, read_digit repr fuel hc, ← List.cons_append, hread]
        simp
        omega

/-! ### Floats -/

/-- The text of a number without its sign that has a fraction or an exponent. -/
def isFraction (cs : List Char) : Bool :=
  match readDigits cs with
  | none => false
  | some (_, rest) =>
      !((readFraction rest).1.isEmpty && (readExponent (readFraction rest).2).1.isEmpty) &&
        (readExponent (readFraction rest).2).2.isEmpty

def isFloatText (s : String) : Bool :=
  if s.toList.head? = some '-' then isFraction s.toList.tail else isFraction s.toList

/-- `float.__repr__`, of the float that a text stands for: a number that is read as a float, or an
infinity, and stable. -/
structure FloatRepr where
  repr : String → String
  isFloat : ∀ s, isFloatText (repr s) = true ∨ repr s = "inf" ∨ repr s = "-inf"
  stable : ∀ s, repr (repr s) = repr s

def FloatRepr.verbatim : FloatRepr where
  repr s := if isFloatText s = true ∨ s = "inf" ∨ s = "-inf" then s else "0.0"
  isFloat s := by
    split
    · next h => exact h
    · exact .inl (by decide)
  stable s := by
    by_cases h : isFloatText s = true ∨ s = "inf" ∨ s = "-inf"
    · rw [if_pos h, if_pos h]
    · rw [if_neg h]
      decide

theorem Ends.takeWhile_append {more : List Char} (hmore : Ends more) (cs : List Char) :
    (cs ++ more).takeWhile Char.isDigit = cs.takeWhile Char.isDigit := by
  induction cs with
  | nil => exact hmore.not_digit.1
  | cons c cs ih =>
      rw [List.cons_append, List.takeWhile_cons, List.takeWhile_cons, ih]

theorem Ends.dropWhile_append {more : List Char} (hmore : Ends more) (cs : List Char) :
    (cs ++ more).dropWhile Char.isDigit = cs.dropWhile Char.isDigit ++ more := by
  induction cs with
  | nil => exact hmore.not_digit.2
  | cons c cs ih =>
      rw [List.cons_append, List.dropWhile_cons, List.dropWhile_cons, ih]
      split <;> rfl

theorem readDigits_append {cs digits rest : List Char} (h : readDigits cs = some (digits, rest))
    {more : List Char} (hmore : Ends more) :
    digits ++ rest = cs ∧ readDigits (cs ++ more) = some (digits, rest ++ more) := by
  cases cs with
  | nil => cases h
  | cons c cs =>
      rw [readDigits] at h
      rw [List.cons_append, readDigits]
      by_cases hzero : c = '0'
      · rw [if_pos hzero] at h ⊢
        cases h
        simp [hzero]
      · rw [if_neg hzero] at h ⊢
        by_cases hdigit : c.isDigit = true
        · rw [if_pos hdigit] at h ⊢
          cases h
          rw [hmore.takeWhile_append, hmore.dropWhile_append]
          simp
        · rw [if_neg hdigit] at h
          cases h

theorem readFraction_append (cs : List Char) {more : List Char} (hmore : Ends more) :
    (readFraction cs).1 ++ (readFraction cs).2 = cs ∧
      readFraction (cs ++ more) = ((readFraction cs).1, (readFraction cs).2 ++ more) := by
  cases cs with
  | nil => exact ⟨rfl, hmore.readFraction⟩
  | cons c cs =>
      by_cases hpoint : c = '.'
      · subst hpoint
        rw [List.cons_append, readFraction, readFraction, hmore.takeWhile_append,
          hmore.dropWhile_append]
        split <;> simp
      · rw [List.cons_append, readFraction, readFraction]
        · exact ⟨rfl, rfl⟩
        all_goals simpa using hpoint

theorem readSign_append (cs : List Char) {more : List Char} (hmore : Ends more) :
    (readSign cs).1 ++ (readSign cs).2 = cs ∧
      readSign (cs ++ more) = ((readSign cs).1, (readSign cs).2 ++ more) := by
  cases cs with
  | nil =>
      refine ⟨rfl, ?_⟩
      rcases hmore with rfl | ⟨c, cs, rfl, hc⟩
      · rfl
      · simp only [List.mem_cons, List.not_mem_nil, or_false] at hc
        rcases hc with rfl | rfl | rfl <;> rfl
  | cons c cs =>
      rw [List.cons_append, readSign, readSign]
      split <;> exact ⟨rfl, rfl⟩

theorem readExponent_append (cs : List Char) {more : List Char} (hmore : Ends more) :
    (readExponent cs).1 ++ (readExponent cs).2 = cs ∧
      readExponent (cs ++ more) = ((readExponent cs).1, (readExponent cs).2 ++ more) := by
  cases cs with
  | nil => exact ⟨rfl, hmore.readExponent⟩
  | cons c cs =>
      have hsign := readSign_append cs hmore
      rw [List.cons_append, readExponent, readExponent, hsign.2]
      generalize readSign cs = p at hsign ⊢
      obtain ⟨sign, rest⟩ := p
      by_cases hletter : (decide (c = 'e') || decide (c = 'E')) = true
      · rw [if_pos hletter, if_pos hletter]
        dsimp only
        rw [hmore.takeWhile_append, hmore.dropWhile_append]
        split
        · exact ⟨rfl, rfl⟩
        · refine ⟨?_, rfl⟩
          simp [hsign.1]
      · rw [if_neg hletter, if_neg hletter]
        exact ⟨rfl, rfl⟩

theorem readNumber_of_isFraction (repr : String → String) (negative : Bool) {cs : List Char}
    (h : isFraction cs = true) {more : List Char} (hmore : Ends more) :
    readNumber repr negative (cs ++ more) =
      some (float (repr (.ofList ((if negative then ['-'] else []) ++ cs))), more) := by
  rw [isFraction] at h
  cases hdigits : readDigits cs with
  | none =>
      rw [hdigits] at h
      cases h
  | some p =>
      obtain ⟨digits, rest⟩ := p
      rw [hdigits] at h
      obtain ⟨happend, hread⟩ := readDigits_append hdigits hmore
      obtain ⟨hfraction, hreadFraction⟩ := readFraction_append rest hmore
      obtain ⟨hexponent, hreadExponent⟩ := readExponent_append (readFraction rest).2 hmore
      simp only [Bool.and_eq_true, Bool.not_eq_true', List.isEmpty_iff] at h
      rw [h.2, List.append_nil] at hexponent
      rw [readNumber, hread]
      dsimp only
      rw [hreadFraction]
      dsimp only
      rw [hreadExponent]
      dsimp only
      rw [if_neg (by simp [h.1]), h.2, hexponent, List.append_assoc, List.append_assoc, hfraction,
        happend]
      rfl

mutual

def floatless : JsonValue → Bool
  | float _ => false
  | array vs => floatlessItems vs
  | object fs => floatlessFields fs
  | _ => true

def floatlessItems : List JsonValue → Bool
  | [] => true
  | v :: vs => v.floatless && floatlessItems vs

def floatlessFields : List (String × JsonValue) → Bool
  | [] => true
  | (_, v) :: fs => v.floatless && floatlessFields fs

end

theorem floatlessItems_iff {vs : List JsonValue} :
    floatlessItems vs = true ↔ ∀ v ∈ vs, v.floatless = true := by
  induction vs with
  | nil => simp [floatlessItems]
  | cons v vs ih => simp [floatlessItems, ih]

theorem floatlessFields_iff {fs : List (String × JsonValue)} :
    floatlessFields fs = true ↔ ∀ f ∈ fs, f.2.floatless = true := by
  induction fs with
  | nil => simp [floatlessFields]
  | cons f fs ih => simp [floatlessFields, ih]

theorem finite_of_floatless {v : JsonValue} (h : v.floatless = true) : v.finite = true := by
  induction v with
  | null | bool _ | int _ | text _ => rfl
  | float r => cases h
  | array vs ih =>
      rw [floatless, floatlessItems_iff] at h
      rw [finite]
      induction vs with
      | nil => rfl
      | cons v vs ihvs => simp_all [finiteItems]
  | object fs ih =>
      rw [floatless, floatlessFields_iff] at h
      rw [finite]
      induction fs with
      | nil => rfl
      | cons f fs ihfs => simp_all [finiteFields]

mutual

def floatsMeet (q : String → Bool) : JsonValue → Bool
  | float r => q r
  | array vs => floatsMeetItems q vs
  | object fs => floatsMeetFields q fs
  | _ => true

def floatsMeetItems (q : String → Bool) : List JsonValue → Bool
  | [] => true
  | v :: vs => v.floatsMeet q && floatsMeetItems q vs

def floatsMeetFields (q : String → Bool) : List (String × JsonValue) → Bool
  | [] => true
  | (_, v) :: fs => v.floatsMeet q && floatsMeetFields q fs

end

def exact (floats : FloatRepr) (v : JsonValue) : Bool :=
  v.floatsMeet fun r => ["nan", "inf", "-inf"].contains r || floats.repr r == r

def readsBack (repr : String → String) (r : String) : Bool :=
  ["nan", "inf", "-inf"].contains r || (isFloatText r && repr r == r)

abbrev readable (repr : String → String) (v : JsonValue) : Bool := v.floatsMeet (readsBack repr)

abbrev readableItems (repr : String → String) (vs : List JsonValue) : Bool :=
  floatsMeetItems (readsBack repr) vs

abbrev readableFields (repr : String → String) (fs : List (String × JsonValue)) : Bool :=
  floatsMeetFields (readsBack repr) fs

theorem head_of_isFraction {cs : List Char} (h : isFraction cs = true) :
    ∃ c ds, cs = c :: ds ∧ c.isDigit = true := by
  cases cs with
  | nil => cases h
  | cons c cs =>
      refine ⟨c, cs, rfl, ?_⟩
      rw [isFraction, readDigits] at h
      by_cases hzero : c = '0'
      · rw [hzero]
        rfl
      · by_cases hdigit : c.isDigit = true
        · exact hdigit
        · rw [if_neg hzero, if_neg hdigit] at h
          cases h

theorem digit_start {c : Char} (hc : c.isDigit = true) : isBlank c = false ∧ c ≠ ']' := by
  refine ⟨?_, ?_⟩
  · cases hblank : isBlank c with
    | false => rfl
    | true =>
        simp only [isBlank, Bool.or_eq_true, decide_eq_true_eq] at hblank
        rcases hblank with ((rfl | rfl) | rfl) | rfl <;> cases hc
  · rintro rfl
    cases hc

theorem writeFloat_of_isFloatText {r : String} (h : isFloatText r = true) :
    writeFloat r = r.toList := by
  have hname : ∀ s : String, isFloatText s = false → r ≠ s := by
    rintro s hs rfl
    rw [h] at hs
    cases hs
  rw [writeFloat, if_neg (hname "nan" (by decide)), if_neg (hname "inf" (by decide)),
    if_neg (hname "-inf" (by decide))]

theorem isFloatText_cases {r : String} (h : isFloatText r = true) :
    ∃ (negative : Bool) (cs : List Char), r.toList = (if negative then ['-'] else []) ++ cs ∧
      isFraction cs = true := by
  rw [isFloatText] at h
  by_cases hsign : r.toList.head? = some '-'
  · rw [if_pos hsign] at h
    cases hr : r.toList with
    | nil =>
        rw [hr] at hsign
        cases hsign
    | cons c cs =>
        rw [hr] at hsign h
        cases hsign
        exact ⟨true, cs, rfl, h⟩
  · rw [if_neg hsign] at h
    exact ⟨false, r.toList, rfl, h⟩

/-- A minus sign and a digit are the start of a number. -/
theorem read_minus (repr : String → String) (fuel : ℕ) {c : Char} (hc : c.isDigit = true)
    (cs : List Char) : read repr (fuel + 1) ('-' :: c :: cs) = readNumber repr true (c :: cs) := by
  rw [read]
  all_goals
    intros
    simp_all

theorem read_writeFloat (repr : String → String) (fuel : ℕ) {r : String}
    (h : (float r).readable repr = true) {rest : List Char} (hrest : Ends rest) :
    read repr (fuel + 1) (writeFloat r ++ rest) = some (float r, rest) := by
  simp only [floatsMeet, readsBack, Bool.or_eq_true, Bool.and_eq_true, beq_iff_eq] at h
  rcases h with hname | ⟨hfloat, hrepr⟩
  · simp only [List.contains_eq_mem, List.mem_cons, List.not_mem_nil, or_false,
      decide_eq_true_eq] at hname
    rcases hname with rfl | rfl | rfl <;> simp [writeFloat, read, readLiteral]
  · rw [writeFloat_of_isFloatText hfloat]
    obtain ⟨negative, cs, hchars, hfraction⟩ := isFloatText_cases hfloat
    have hread := readNumber_of_isFraction repr negative hfraction hrest
    rw [← hchars, String.ofList_toList, hrepr] at hread
    obtain ⟨c, ds, rfl, hc⟩ := head_of_isFraction hfraction
    rw [hchars]
    cases negative with
    | true => exact (read_minus repr fuel hc _).trans hread
    | false => exact (read_digit repr fuel hc _).trans hread

theorem floatsMeetItems_eq_all (q : String → Bool) (vs : List JsonValue) :
    floatsMeetItems q vs = vs.all (floatsMeet q) := by
  induction vs with
  | nil => rfl
  | cons v vs ih => rw [floatsMeetItems, List.all_cons, ih]

theorem floatsMeetFields_eq_all (q : String → Bool) (fs : List (String × JsonValue)) :
    floatsMeetFields q fs = fs.all fun f => f.2.floatsMeet q := by
  induction fs with
  | nil => rfl
  | cons f fs ih => simp [floatsMeetFields, ih]

theorem floatsMeet_array_iff {q : String → Bool} {vs : List JsonValue} :
    (array vs).floatsMeet q = true ↔ ∀ v ∈ vs, v.floatsMeet q = true := by
  rw [floatsMeet, floatsMeetItems_eq_all, List.all_eq_true]

theorem floatsMeet_object_iff {q : String → Bool} {fs : List (String × JsonValue)} :
    (object fs).floatsMeet q = true ↔ ∀ f ∈ fs, f.2.floatsMeet q = true := by
  rw [floatsMeet, floatsMeetFields_eq_all, List.all_eq_true]

theorem floatsMeet_mono {p q : String → Bool} (hpq : ∀ r, p r = true → q r = true)
    {v : JsonValue} (h : v.floatsMeet p = true) : v.floatsMeet q = true := by
  induction v with
  | null | bool _ | int _ | text _ => rfl
  | float r => exact hpq r h
  | array vs ih =>
      rw [floatsMeet_array_iff] at h ⊢
      exact fun v hv => ih v hv (h v hv)
  | object fs ih =>
      rw [floatsMeet_object_iff] at h ⊢
      exact fun f hf => ih f hf (h f hf)

theorem floatless_eq_floatsMeet (v : JsonValue) : v.floatless = v.floatsMeet fun _ => false := by
  induction v with
  | null | bool _ | int _ | float _ | text _ => rfl
  | array vs ih =>
      rw [Bool.eq_iff_iff, floatless, floatlessItems_iff, floatsMeet_array_iff]
      exact forall₂_congr fun v hv => by rw [ih v hv]
  | object fs ih =>
      rw [Bool.eq_iff_iff, floatless, floatlessFields_iff, floatsMeet_object_iff]
      exact forall₂_congr fun f hf => by rw [ih f hf]

theorem floatsMeet_of_floatless (q : String → Bool) {v : JsonValue} (h : v.floatless = true) :
    v.floatsMeet q = true := by
  rw [floatless_eq_floatsMeet] at h
  exact floatsMeet_mono (fun _ hr => by cases hr) h

/-- What is given by its `repr` is read as it was written. -/
theorem readable_of_exact (floats : FloatRepr) {v : JsonValue} (h : v.exact floats = true) :
    v.readable floats.repr = true := by
  refine floatsMeet_mono (fun r hr => ?_) h
  simp only [readsBack, Bool.or_eq_true, Bool.and_eq_true, beq_iff_eq] at hr ⊢
  refine hr.elim .inl fun hrepr => ?_
  have hfloat := floats.isFloat r
  rw [hrepr] at hfloat
  rcases hfloat with hfloat | rfl | rfl
  · exact .inr ⟨hfloat, hrepr⟩
  · exact .inl rfl
  · exact .inl rfl

theorem exact_float (floats : FloatRepr) (s : String) :
    (float (floats.repr s)).exact floats = true := by
  simp [exact, floatsMeet, floats.stable]

theorem exact_of_readNumber (floats : FloatRepr) {negative : Bool} {cs rest : List Char}
    {v : JsonValue} (h : readNumber floats.repr negative cs = some (v, rest)) :
    v.exact floats = true := by
  rw [readNumber] at h
  cases hdigits : readDigits cs with
  | none =>
      rw [hdigits] at h
      cases h
  | some d =>
      rw [hdigits] at h
      simp only at h
      split at h
      · cases h
        rfl
      · cases h
        exact exact_float floats _

theorem exact_of_readLiteral (floats : FloatRepr) {word : String} {v u : JsonValue}
    {cs rest : List Char} (hv : v.exact floats = true)
    (h : readLiteral word v cs = some (u, rest)) : u.exact floats = true := by
  rw [readLiteral] at h
  split at h
  · cases h
    exact hv
  · cases h

theorem exact_array_cons {floats : FloatRepr} {v : JsonValue} {vs : List JsonValue}
    (hv : v.exact floats = true) (hvs : (array vs).exact floats = true) :
    (array (v :: vs)).exact floats = true := by
  simp only [exact, floatsMeet, floatsMeetItems, Bool.and_eq_true] at hv hvs ⊢
  exact ⟨hv, hvs⟩

theorem exact_object_cons {floats : FloatRepr} {k : String} {v : JsonValue}
    {fs : List (String × JsonValue)} (hv : v.exact floats = true)
    (hfs : (object fs).exact floats = true) : (object ((k, v) :: fs)).exact floats = true := by
  simp only [exact, floatsMeet, floatsMeetFields, Bool.and_eq_true] at hv hfs ⊢
  exact ⟨hv, hfs⟩

mutual

theorem exact_of_read (floats : FloatRepr) : ∀ (fuel : ℕ) {cs : List Char} {v : JsonValue}
    {rest : List Char}, read floats.repr fuel cs = some (v, rest) → v.exact floats = true
  | 0, _, _, _, h => by simp [read] at h
  | fuel + 1, cs, v, rest, h => by
      rw [read.eq_def] at h
      simp only at h
      split at h
      · cases h
      · obtain ⟨s, -, hs⟩ := Option.map_eq_some_iff.mp h
        cases hs
        rfl
      · split at h
        · cases h
        · split at h
          · cases h
            rfl
          · obtain ⟨s, hs, hv⟩ := Option.map_eq_some_iff.mp h
            cases hv
            exact exact_of_readItems floats fuel hs
      · split at h
        · cases h
        · split at h
          · cases h
            rfl
          · obtain ⟨s, hs, hv⟩ := Option.map_eq_some_iff.mp h
            cases hv
            exact exact_of_readFields floats fuel hs
      · exact exact_of_readLiteral floats rfl h
      · exact exact_of_readLiteral floats rfl h
      · exact exact_of_readLiteral floats rfl h
      · exact exact_of_readLiteral floats rfl h
      · exact exact_of_readLiteral floats rfl h
      · exact exact_of_readLiteral floats rfl h
      · exact exact_of_readNumber floats h
      · exact exact_of_readNumber floats h

theorem exact_of_readItems (floats : FloatRepr) : ∀ (fuel : ℕ) {cs : List Char}
    {vs : List JsonValue} {rest : List Char}, readItems floats.repr fuel cs = some (vs, rest) →
      (array vs).exact floats = true
  | 0, _, _, _, h => by simp [readItems] at h
  | fuel + 1, cs, vs, rest, h => by
      rw [readItems] at h
      split at h
      · cases h
      · next hread =>
          have hexact := exact_of_read floats fuel hread
          split at h
          · cases h
          · split at h
            · cases h
              exact exact_array_cons hexact rfl
            · split at h
              · obtain ⟨s, hs, hvs⟩ := Option.map_eq_some_iff.mp h
                cases hvs
                exact exact_array_cons hexact (exact_of_readItems floats fuel hs)
              · cases h

theorem exact_of_readFields (floats : FloatRepr) : ∀ (fuel : ℕ) {cs : List Char}
    {fs : List (String × JsonValue)} {rest : List Char},
    readFields floats.repr fuel cs = some (fs, rest) → (object fs).exact floats = true
  | 0, _, _, _, h => by simp [readFields] at h
  | _ + 1, [], _, _, h => by simp [readFields] at h
  | fuel + 1, quote :: cs, fs, rest, h => by
      rw [readFields] at h
      split at h
      case isFalse => cases h
      split at h
      · cases h
      · split at h
        · cases h
        · split at h
          case isFalse => cases h
          split at h
          · cases h
          · next hread =>
              have hexact := exact_of_read floats fuel hread
              split at h
              · cases h
              · split at h
                · cases h
                  exact exact_object_cons hexact rfl
                · split at h
                  · obtain ⟨s, hs, hfs⟩ := Option.map_eq_some_iff.mp h
                    cases hfs
                    exact exact_object_cons hexact (exact_of_readFields floats fuel hs)
                  · cases h

end

theorem exact_of_loads? (floats : FloatRepr) {s : String} {v : JsonValue}
    (h : loads? floats.repr s = some v) : v.exact floats = true := by
  rw [loads?] at h
  split at h
  · cases h
  · next hread =>
      split at h
      · cases h
        exact exact_of_read floats _ hread
      · cases h

/-- A comma and a colon, with white space after them. -/
structure Separators.Spaced (sep : Separators) : Prop where
  item : ∃ blanks, sep.item = ',' :: blanks ∧ ∀ c ∈ blanks, isBlank c = true
  key : ∃ blanks, sep.key = ':' :: blanks ∧ ∀ c ∈ blanks, isBlank c = true

theorem skipBlanks_append {blanks : List Char} (h : ∀ c ∈ blanks, isBlank c = true)
    (cs : List Char) : skipBlanks (blanks ++ cs) = skipBlanks cs :=
  List.dropWhile_append_of_pos h

theorem skipBlanks_cons {c : Char} (h : isBlank c = false) (cs : List Char) :
    skipBlanks (c :: cs) = c :: cs := by
  simp [skipBlanks, h]

/-- Every character that is written is read. -/
structure Format.Faithful (fmt : Format) : Prop where
  spaced : fmt.toSeparators.Spaced
  read : ∀ c fuel rest, readText (fuel + 1) (fmt.escape c ++ rest) =
    (readText fuel rest).map fun (chars, rest) => (c :: chars, rest)

section RoundTrip

variable {fmt : Format} (hfmt : fmt.Faithful) (repr : String → String)

variable (fmt) in
/-- The text of a value starts with neither white space nor a closing bracket. -/
theorem writeAs_start {v : JsonValue} (hv : v.readable repr = true) :
    ∃ c cs, writeAs fmt v = c :: cs ∧ isBlank c = false ∧ c ≠ ']' := by
  cases v with
  | null => exact ⟨'n', _, rfl, rfl, by decide⟩
  | bool b => cases b <;> exact ⟨_, _, rfl, rfl, by decide⟩
  | int n =>
      rw [writeAs, writeInt]
      split
      · exact ⟨'-', _, rfl, rfl, by decide⟩
      · cases hdigits : Nat.toDigits 10 n.natAbs with
        | nil => exact absurd hdigits Nat.toDigits_ne_nil
        | cons c cs =>
            have hall : ∀ d ∈ Nat.toDigits 10 n.natAbs, d.isDigit = true :=
              fun d hd => Nat.isDigit_of_mem_toDigits (by omega) (by omega) hd
            have hc : c.isDigit = true := hall c (by rw [hdigits]; exact List.mem_cons_self)
            exact ⟨c, cs, rfl, digit_start hc⟩
  | float r =>
      simp only [floatsMeet, readsBack, Bool.or_eq_true, Bool.and_eq_true] at hv
      rcases hv with hname | ⟨hfloat, -⟩
      · simp only [List.contains_eq_mem, List.mem_cons, List.not_mem_nil, or_false,
          decide_eq_true_eq] at hname
        rcases hname with rfl | rfl | rfl <;> exact ⟨_, _, rfl, rfl, by decide⟩
      · rw [writeAs, writeFloat_of_isFloatText hfloat]
        obtain ⟨negative, cs, hchars, hfraction⟩ := isFloatText_cases hfloat
        obtain ⟨c, ds, rfl, hc⟩ := head_of_isFraction hfraction
        cases negative with
        | true => exact ⟨'-', _, hchars, rfl, by decide⟩
        | false => exact ⟨c, ds, hchars, digit_start hc⟩
  | text s => exact ⟨'"', _, rfl, rfl, by decide⟩
  | array vs => cases vs <;> exact ⟨'[', _, rfl, rfl, by decide⟩
  | object fs => cases fs <;> exact ⟨'{', _, rfl, rfl, by decide⟩

include hfmt in
theorem ends_writeItemsAs (vs : List JsonValue) (rest : List Char) :
    Ends (writeItemsAs fmt vs ++ rest) := by
  obtain ⟨blanks, hitem, -⟩ := hfmt.spaced.item
  cases vs with
  | nil => exact .inr ⟨']', rest, rfl, by simp⟩
  | cons v vs =>
      rw [writeItemsAs, hitem]
      exact .inr ⟨',', _, rfl, by simp⟩

include hfmt in
theorem ends_writeFieldsAs (fs : List (String × JsonValue)) (rest : List Char) :
    Ends (writeFieldsAs fmt fs ++ rest) := by
  obtain ⟨blanks, hitem, -⟩ := hfmt.spaced.item
  cases fs with
  | nil => exact .inr ⟨'}', rest, rfl, by simp⟩
  | cons f fs =>
      rw [writeFieldsAs, hitem]
      exact .inr ⟨',', _, rfl, by simp⟩

theorem read_array {c : Char} (hblank : isBlank c = false) (hclose : c ≠ ']') (fuel : ℕ)
    (cs : List Char) : read repr (fuel + 1) ('[' :: c :: cs) =
      (readItems repr fuel (c :: cs)).map fun (vs, rest) => (array vs, rest) := by
  rw [read, skipBlanks_cons hblank]
  dsimp only
  rw [if_neg hclose]

theorem read_object (fuel : ℕ) (cs : List Char) : read repr (fuel + 1) ('{' :: '"' :: cs) =
    (readFields repr fuel ('"' :: cs)).map fun (fs, rest) => (object fs, rest) := by
  rw [read, skipBlanks_cons rfl]
  dsimp only
  rw [if_neg (by decide)]

variable (fmt) in
theorem length_writeAs_pos {v : JsonValue} (hv : v.readable repr = true) :
    0 < (writeAs fmt v).length := by
  obtain ⟨c, cs, h, -⟩ := writeAs_start fmt repr hv
  simp [h]

include hfmt in
theorem length_escape_pos (c : Char) : 0 < (fmt.escape c).length := by
  have hread := hfmt.read c 0 ['"']
  rw [List.length_pos_iff]
  intro hnil
  rw [hnil] at hread
  cases hread

include hfmt in
theorem length_le_escaped (chars : List Char) :
    chars.length ≤ (chars.flatMap fmt.escape).length := by
  induction chars with
  | nil => exact le_rfl
  | cons c chars ih =>
      have hpos := length_escape_pos hfmt c
      simp only [List.flatMap_cons, List.length_append, List.length_cons]
      omega

include hfmt in
theorem readText_escaped (chars : List Char) {fuel : ℕ} (h : chars.length < fuel)
    (rest : List Char) :
    readText fuel (chars.flatMap fmt.escape ++ '"' :: rest) = some (chars, rest) := by
  induction chars generalizing fuel with
  | nil =>
      obtain ⟨fuel, rfl⟩ := Nat.exists_eq_add_of_lt h
      simp [readText]
  | cons c chars ih =>
      obtain ⟨fuel, rfl⟩ := Nat.exists_eq_add_of_lt h
      rw [List.flatMap_cons, List.append_assoc, hfmt.read, ih (by simp; omega)]
      rfl

include hfmt in
theorem readText_quoted (s : String) (rest : List Char) :
    readText ((s.toList.flatMap fmt.escape ++ '"' :: rest).length + 1)
      (s.toList.flatMap fmt.escape ++ '"' :: rest) = some (s.toList, rest) := by
  apply readText_escaped hfmt
  have hlength := length_le_escaped hfmt s.toList
  simp only [List.length_append, List.length_cons]
  omega

variable (fmt) in
theorem length_writeItemsAs_pos (vs : List JsonValue) : 0 < (writeItemsAs fmt vs).length := by
  induction vs with
  | nil => simp [writeItemsAs]
  | cons v vs ih =>
      simp only [writeItemsAs, List.length_append]
      omega

variable (fmt) in
theorem length_writeFieldsAs_pos (fs : List (String × JsonValue)) :
    0 < (writeFieldsAs fmt fs).length := by
  induction fs with
  | nil => simp [writeFieldsAs]
  | cons f fs ih =>
      simp only [writeFieldsAs, List.length_append]
      omega

mutual

/-- What was written is read, by structural induction on the value. -/
theorem read_writeAs (hfmt : fmt.Faithful) : ∀ {v : JsonValue}, v.readable repr = true →
    ∀ (fuel : ℕ), (writeAs fmt v).length ≤ fuel → ∀ {rest : List Char}, Ends rest →
      read repr fuel (writeAs fmt v ++ rest) = some (v, rest)
  | .null, _, fuel + 1, _, _, _ => by simp [writeAs, read, readLiteral]
  | .bool true, _, fuel + 1, _, _, _ => by simp [writeAs, read, readLiteral]
  | .bool false, _, fuel + 1, _, _, _ => by simp [writeAs, read, readLiteral]
  | .int n, _, fuel + 1, _, _, hrest => by
      rw [writeAs]
      exact read_writeInt repr fuel n hrest
  | .float r, hv, fuel + 1, _, _, hrest => by
      rw [writeAs]
      exact read_writeFloat repr fuel hv hrest
  | .text s, _, fuel + 1, _, rest, _ => by
      have hread := readText_quoted hfmt s rest
      simp only [writeAs, Format.text, List.cons_append, List.append_assoc, List.nil_append, read]
      rw [hread]
      simp
  | .array [], _, fuel + 1, _, _, _ => by simp [writeAs, read, skipBlanks, isBlank]
  | .array (v :: vs), hv, fuel + 1, hfuel, rest, _ => by
      simp only [floatsMeet, floatsMeetItems, Bool.and_eq_true] at hv
      simp only [writeAs, List.cons_append, List.length_cons, Nat.add_le_add_iff_right] at hfuel
      have hread := read_writeItemsAs hfmt hv.1 hv.2 fuel hfuel rest
      obtain ⟨c, cs, hstart, hblank, hclose⟩ := writeAs_start fmt repr hv.1
      simp only [writeAs, List.cons_append, List.append_assoc, hstart] at hread ⊢
      rw [read_array repr hblank hclose, hread]
      rfl
  | .object [], _, fuel + 1, _, _, _ => by simp [writeAs, read, skipBlanks, isBlank]
  | .object ((k, v) :: fs), hv, fuel + 1, hfuel, rest, _ => by
      simp only [floatsMeet, floatsMeetFields, Bool.and_eq_true] at hv
      simp only [writeAs, List.cons_append, List.length_cons, Nat.add_le_add_iff_right,
        List.append_assoc] at hfuel
      have hread := read_writeFieldsAs hfmt k hv.1 hv.2 fuel hfuel rest
      simp only [writeAs, Format.text, List.cons_append, List.append_assoc] at hread ⊢
      rw [read_object repr, hread]
      rfl
  | v, hv, 0, hfuel, _, _ => by
      have hpos := length_writeAs_pos fmt repr hv
      omega

theorem read_writeItemsAs (hfmt : fmt.Faithful) : ∀ {v : JsonValue} {vs : List JsonValue},
    v.readable repr = true → readableItems repr vs = true → ∀ (fuel : ℕ),
      (writeAs fmt v ++ writeItemsAs fmt vs).length ≤ fuel → ∀ rest,
        readItems repr fuel (writeAs fmt v ++ (writeItemsAs fmt vs ++ rest)) =
          some (v :: vs, rest)
  | v, vs, hv, hvs, fuel + 1, hfuel, rest => by
      have hpos := length_writeAs_pos fmt repr hv
      have hitems := length_writeItemsAs_pos fmt vs
      rw [List.length_append] at hfuel
      have hread := read_writeAs hfmt hv fuel (by omega) (ends_writeItemsAs hfmt vs rest)
      rw [readItems, hread]
      dsimp only
      cases vs with
      | nil => simp [writeItemsAs, skipBlanks, isBlank]
      | cons u us =>
          obtain ⟨blanks, hitem, hblanks⟩ := hfmt.spaced.item
          simp only [floatsMeetItems, Bool.and_eq_true] at hvs
          obtain ⟨c, cs, hstart, hblank, -⟩ := writeAs_start fmt repr hvs.1
          simp only [writeItemsAs, hitem, List.length_append, List.length_cons] at hfuel
          have hmore := read_writeItemsAs hfmt hvs.1 hvs.2 fuel
            (by simp only [List.length_append]; omega) rest
          simp only [writeItemsAs, hitem, List.cons_append, List.append_assoc]
          rw [skipBlanks_cons rfl]
          dsimp only
          rw [if_neg (by decide), if_pos rfl, skipBlanks_append hblanks]
          rw [hstart, List.cons_append] at hmore ⊢
          rw [skipBlanks_cons hblank, hmore]
          rfl
  | v, vs, hv, _, 0, hfuel, _ => by
      have hpos := length_writeAs_pos fmt repr hv
      simp only [List.length_append] at hfuel
      omega

theorem read_writeFieldsAs (hfmt : fmt.Faithful) : ∀ (k : String) {v : JsonValue}
    {fs : List (String × JsonValue)}, v.readable repr = true → readableFields repr fs = true →
      ∀ (fuel : ℕ),
        (fmt.text k ++ (fmt.key ++ (writeAs fmt v ++ writeFieldsAs fmt fs))).length ≤ fuel →
          ∀ rest, readFields repr fuel
            (fmt.text k ++ (fmt.key ++ (writeAs fmt v ++ (writeFieldsAs fmt fs ++ rest)))) =
              some ((k, v) :: fs, rest)
  | k, v, fs, hv, hfs, fuel + 1, hfuel, rest => by
      obtain ⟨blanks, hitem, hblanks⟩ := hfmt.spaced.item
      obtain ⟨blanks', hkey, hblanks'⟩ := hfmt.spaced.key
      obtain ⟨c, cs, hstart, hblank, -⟩ := writeAs_start fmt repr hv
      have hfields := length_writeFieldsAs_pos fmt fs
      have htext := readText_quoted hfmt k
        (fmt.key ++ (writeAs fmt v ++ (writeFieldsAs fmt fs ++ rest)))
      simp only [Format.text, hkey, List.length_append, List.length_cons] at hfuel
      have hread := read_writeAs hfmt hv fuel (by omega) (ends_writeFieldsAs hfmt fs rest)
      simp only [Format.text, List.cons_append, List.append_assoc, List.nil_append, readFields,
        if_true]
      rw [htext]
      dsimp only
      rw [hkey, List.cons_append, skipBlanks_cons rfl]
      dsimp only
      rw [if_pos rfl, skipBlanks_append hblanks']
      rw [hstart, List.cons_append] at hread ⊢
      rw [skipBlanks_cons hblank, hread]
      dsimp only
      cases fs with
      | nil => simp [writeFieldsAs, skipBlanks, isBlank]
      | cons f fs =>
          obtain ⟨k', v'⟩ := f
          simp only [floatsMeetFields, Bool.and_eq_true] at hfs
          have hlong :
              (fmt.text k' ++ (fmt.key ++ (writeAs fmt v' ++ writeFieldsAs fmt fs))).length ≤
                fuel := by
            simp only [writeFieldsAs, hitem, Format.text, List.length_append,
              List.length_cons] at hfuel ⊢
            omega
          have hmore := read_writeFieldsAs hfmt k' hfs.1 hfs.2 fuel hlong rest
          simp only [writeFieldsAs, hitem, List.cons_append, List.append_assoc]
          rw [skipBlanks_cons rfl]
          dsimp only
          rw [if_neg (by decide), if_pos rfl, skipBlanks_append hblanks]
          simp only [Format.text, List.cons_append, List.append_assoc] at hmore ⊢
          rw [skipBlanks_cons rfl, hmore]
          simp
  | k, v, fs, hv, _, 0, hfuel, _ => by
      have hpos := length_writeAs_pos fmt repr hv
      simp only [List.length_append] at hfuel
      omega

end

theorem loads?_writeAs (hfmt : fmt.Faithful) {v : JsonValue} (hv : v.readable repr = true) :
    loads? repr (.ofList (writeAs fmt v)) = some v := by
  obtain ⟨c, cs, hstart, hblank, -⟩ := writeAs_start fmt repr hv
  have hread := read_writeAs repr hfmt hv ((String.ofList (writeAs fmt v)).length + 1) (by simp)
    (.inl rfl)
  rw [List.append_nil, hstart] at hread
  rw [loads?, String.toList_ofList, hstart, skipBlanks_cons hblank, hread]
  rfl

end RoundTrip

theorem Separators.Spaced.ascii {sep : Separators} (hsep : sep.Spaced) : sep.ascii.Faithful where
  spaced := hsep
  read := readText_escapeChar

theorem Separators.Spaced.unicode {sep : Separators} (hsep : sep.Spaced) :
    sep.unicode.Faithful where
  spaced := hsep
  read := readText_escapeControl

theorem loads?_write {sep : Separators} (repr : String → String) (hsep : sep.Spaced)
    {v : JsonValue} (hv : v.readable repr = true) :
    loads? repr (.ofList (write sep v)) = some v := by
  rw [← writeAs_ascii]
  exact loads?_writeAs repr hsep.ascii hv

theorem loads?_dumps (repr : String → String) {v : JsonValue} (hv : v.floatless = true) :
    loads? repr v.dumps = some v :=
  loads?_write repr ⟨⟨[' '], rfl, by decide⟩, ⟨[' '], rfl, by decide⟩⟩
    (floatsMeet_of_floatless _ hv)

end JsonValue

end WaitLocalAgent.Foundation
