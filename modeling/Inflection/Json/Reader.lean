import Inflection.Json.Number
import Inflection.Lexicon.Basic

/-!
# Reading raw trees from JSON

`readTree` reads an object of objects of strings or nulls.  Of equal names in one object the last
wins.  Reading stops at the first failure, and a value of another sort is a failure that says what
was found.
-/

namespace Inflection.Json

/-- Whether a character may stand between the parts of a JSON text. -/
def isSpace (c : Char) : Bool := c == ' ' || c == '\n' || c == '\t' || c == '\r'

/-- The text from its first character that is no space. -/
def skipSpaces (cs : List Char) : List Char := cs.dropWhile isSpace

/-! ## Strings -/

/-- The value of a hexadecimal digit. -/
def hexDigit? (c : Char) : Option Nat :=
  if '0' ≤ c ∧ c ≤ '9' then some (c.toNat - '0'.toNat)
  else if 'a' ≤ c ∧ c ≤ 'f' then some (c.toNat - 'a'.toNat + 10)
  else if 'A' ≤ c ∧ c ≤ 'F' then some (c.toNat - 'A'.toNat + 10)
  else none

/-- The value of four hexadecimal digits. -/
def hexValue? (a b c d : Char) : Option Nat := do
  return ((← hexDigit? a) * 16 + (← hexDigit? b)) * 256 + (← hexDigit? c) * 16 + (← hexDigit? d)

/-- Why a text does not begin with four hexadecimal digits: four bytes are passed, if it has as
many. -/
def hexFailure (cs : List Char) : Failure :=
  if 4 ≤ Text.byteLength cs then ⟨.invalidEscape, Text.byteLength cs - 4⟩ else ⟨.endInString, 0⟩

/-- Reads four hexadecimal digits. -/
def readHex : List Char → Except Failure (Nat × List Char)
  | a :: b :: c :: d :: rest =>
    match hexValue? a b c d with
    | some n => .ok (n, rest)
    | none => .error (hexFailure (a :: b :: c :: d :: rest))
  | cs => .error (hexFailure cs)

theorem length_lt_of_readHex {cs rest : List Char} {n : Nat} (h : readHex cs = .ok (n, rest)) :
    rest.length < cs.length := by
  unfold readHex at h
  split at h
  · split at h
    · obtain ⟨_, rfl⟩ := Prod.mk.inj (Except.ok.inj h)
      simp only [List.length_cons]
      omega
    · cases h
  · cases h

/-- Whether a unit begins a pair of surrogates. -/
def isHighSurrogate (n : Nat) : Bool := 0xd800 ≤ n && n ≤ 0xdbff

/-- Whether a unit ends a pair of surrogates. -/
def isLowSurrogate (n : Nat) : Bool := 0xdc00 ≤ n && n ≤ 0xdfff

/-- Reads the second of a pair of surrogates. -/
def readLowSurrogate (high : Nat) : List Char → Except Failure (Char × List Char)
  | '\\' :: 'u' :: cs => do
    let (low, rest) ← readHex cs
    if isLowSurrogate low then
      .ok (Char.ofNat ((high - 0xd800) * 0x400 + (low - 0xdc00) + 0x10000), rest)
    else .error (.before .unpairedSurrogate rest)
  | '\\' :: [] => .error (.before .endInString [])
  | '\\' :: cs => .error (.into .unendedSurrogate cs)
  | [] => .error (.before .endInString [])
  | cs => .error (.into .unendedSurrogate cs)

/-- Reads an escape given by a number, after its letter. -/
def readUnicode (cs : List Char) : Except Failure (Char × List Char) := do
  let (n, rest) ← readHex cs
  if isLowSurrogate n then .error (.before .unpairedSurrogate rest)
  else if isHighSurrogate n then readLowSurrogate n rest
  else .ok (Char.ofNat n, rest)

/-- The character that an escape of one letter stands for. -/
def simpleEscape? : Char → Option Char
  | '"' => some '"'
  | '\\' => some '\\'
  | '/' => some '/'
  | 'b' => some '\x08'
  | 'f' => some '\x0c'
  | 'n' => some '\n'
  | 'r' => some '\r'
  | 't' => some '\t'
  | _ => none

/-- Reads an escape after its backslash. -/
def readEscape : List Char → Except Failure (Char × List Char)
  | [] => .error (.before .endInString [])
  | 'u' :: cs => readUnicode cs
  | c :: cs =>
    match simpleEscape? c with
    | some d => .ok (d, cs)
    | none => .error (.into .invalidEscape (c :: cs))

/-- Reads one character of a string, or its closing quote. -/
def readChar : List Char → Except Failure (Option Char × List Char)
  | [] => .error (.before .endInString [])
  | '"' :: cs => .ok (none, cs)
  | '\\' :: cs => (readEscape cs).map fun p => (some p.1, p.2)
  | c :: cs =>
    if c.toNat < 0x20 then .error (.before .controlCharacter cs) else .ok (some c, cs)

theorem length_lt_of_readLowSurrogate {high : Nat} {cs rest : List Char} {c : Char}
    (h : readLowSurrogate high cs = .ok (c, rest)) : rest.length < cs.length := by
  unfold readLowSurrogate at h
  split at h
  · rename_i cs
    cases hr : readHex cs with
    | error e => rw [hr] at h; cases h
    | ok p =>
      have hlt := length_lt_of_readHex hr
      rw [hr] at h
      simp only [bind, Except.bind] at h
      split at h
      · obtain ⟨_, rfl⟩ := Prod.mk.inj (Except.ok.inj h)
        simp only [List.length_cons]
        omega
      · cases h
  all_goals cases h

theorem length_lt_of_readUnicode {cs rest : List Char} {c : Char}
    (h : readUnicode cs = .ok (c, rest)) : rest.length < cs.length := by
  unfold readUnicode at h
  cases hr : readHex cs with
  | error e => rw [hr] at h; cases h
  | ok p =>
    have hlt := length_lt_of_readHex hr
    rw [hr] at h
    simp only [bind, Except.bind] at h
    split at h
    · cases h
    · split at h
      · exact Nat.lt_trans (length_lt_of_readLowSurrogate h) hlt
      · obtain ⟨_, rfl⟩ := Prod.mk.inj (Except.ok.inj h)
        exact hlt

theorem length_lt_of_readEscape {cs rest : List Char} {c : Char}
    (h : readEscape cs = .ok (c, rest)) : rest.length < cs.length := by
  unfold readEscape at h
  split at h
  · cases h
  · exact Nat.lt_succ_of_lt (length_lt_of_readUnicode h)
  · split at h
    · obtain ⟨_, rfl⟩ := Prod.mk.inj (Except.ok.inj h)
      exact Nat.lt_succ_self _
    · cases h

theorem length_lt_of_readChar {cs rest : List Char} {c? : Option Char}
    (h : readChar cs = .ok (c?, rest)) : rest.length < cs.length := by
  unfold readChar at h
  split at h
  · cases h
  · obtain ⟨_, rfl⟩ := Prod.mk.inj (Except.ok.inj h)
    exact Nat.lt_succ_self _
  · rename_i cs
    cases hr : readEscape cs with
    | error e => rw [hr] at h; cases h
    | ok p =>
      rw [hr] at h
      obtain ⟨_, rfl⟩ := Prod.mk.inj (Except.ok.inj h)
      exact Nat.lt_succ_of_lt (length_lt_of_readEscape hr)
  · split at h
    · cases h
    · obtain ⟨_, rfl⟩ := Prod.mk.inj (Except.ok.inj h)
      exact Nat.lt_succ_self _

/-- Reads a string after its opening quote. -/
def readString (cs : List Char) : Except Failure (List Char × List Char) :=
  match _h : readChar cs with
  | .error e => .error e
  | .ok (none, rest) => .ok ([], rest)
  | .ok (some c, rest) =>
    match readString rest with
    | .error e => .error e
    | .ok (s, rest) => .ok (c :: s, rest)
termination_by cs.length
decreasing_by exact length_lt_of_readChar _h

/-! ## Values of another sort -/

/-- Passes over the letters of a word. -/
def readWord : List Char → List Char → Except Failure (List Char)
  | [], cs => .ok cs
  | _ :: _, [] => .error (.before .endInValue [])
  | w :: ws, c :: cs =>
    if c = w then readWord ws cs else .error (.into .expectedWord (c :: cs))

/-- Reads a value to say what was found.  Brackets are not read. -/
def readFound (cs : List Char) : Except Failure (Found × List Char) :=
  match cs with
  | 'n' :: rest => (readWord ['u', 'l', 'l'] rest).map fun rest => (.null, rest)
  | 't' :: rest => (readWord ['r', 'u', 'e'] rest).map fun rest => (.bool true, rest)
  | 'f' :: rest => (readWord ['a', 'l', 's', 'e'] rest).map fun rest => (.bool false, rest)
  | '-' :: rest => readNumber true rest
  | '"' :: rest => (readString rest).map fun p => (.string (String.ofList p.1), p.2)
  | '[' :: _ => .ok (.array, cs)
  | '{' :: _ => .ok (.object, cs)
  | c :: _ => if c.isDigit then readNumber false cs else .error (.into .expectedValue cs)
  | [] => .error (.into .expectedValue [])

/-- The failure at a value of another sort than expected. -/
def otherSort (expected : Expected) (cs : List Char) : Failure :=
  match readFound cs with
  | .error e => e
  | .ok (found, rest) => .before (.invalidType found expected) rest

/-! ## Objects -/

/-- Passes over the colon after a name. -/
def readColon (cs : List Char) : Except Failure (List Char) :=
  match skipSpaces cs with
  | ':' :: rest => .ok rest
  | [] => .error (.into .endInObject [])
  | rest => .error (.into .expectedColon rest)

section Object

variable {α : Type} (readValue : List Char → Except Failure (α × List Char))

/-- Reads a name and its value. -/
def readEntry (cs : List Char) : Except Failure ((String × α) × List Char) :=
  match cs with
  | '"' :: rest => do
    let (name, rest) ← readString rest
    let rest ← readColon rest
    let (value, rest) ← readValue rest
    .ok ((String.ofList name, value), rest)
  | rest => .error (.into .keyNotString rest)

/-- Reads the entries after the first, for at most a number of them. -/
def readMore : Nat → List Char → Except Failure (List (String × α) × List Char)
  | 0, cs => .error (.into .endInObject cs)
  | entries + 1, cs =>
    match skipSpaces cs with
    | '}' :: rest => .ok ([], rest)
    | ',' :: rest =>
      match skipSpaces rest with
      | '}' :: rest => .error (.into .trailingComma ('}' :: rest))
      | [] => .error (.into .endInValue [])
      | rest => do
        let (e, rest) ← readEntry readValue rest
        let (es, rest) ← readMore entries rest
        .ok (e :: es, rest)
    | [] => .error (.into .endInObject [])
    | rest => .error (.into .expectedCommaOrBrace rest)

/-- Reads the entries of an object after its opening brace. -/
def readEntries (cs : List Char) : Except Failure (List (String × α) × List Char) :=
  match skipSpaces cs with
  | '}' :: rest => .ok ([], rest)
  | [] => .error (.into .endInObject [])
  | rest => do
    let (e, rest) ← readEntry readValue rest
    let (es, rest) ← readMore readValue rest.length rest
    .ok (e :: es, rest)

/-- Reads an object. -/
def readObject (cs : List Char) : Except Failure (SortedMap α × List Char) :=
  match skipSpaces cs with
  | '{' :: rest => do
    let (es, rest) ← readEntries readValue rest
    .ok (SortedMap.ofList es, rest)
  | [] => .error (.into .endInValue [])
  | rest => .error (otherSort .object rest)

end Object

/-! ## Trees -/

/-- Reads a string or null. -/
def readStringOrNull (cs : List Char) : Except Failure (Option String × List Char) :=
  match skipSpaces cs with
  | 'n' :: rest => (readWord ['u', 'l', 'l'] rest).map fun rest => (none, rest)
  | '"' :: rest => (readString rest).map fun p => (some (String.ofList p.1), p.2)
  | [] => .error (.into .endInValue [])
  | rest => .error (otherSort .string rest)

/-- Reads a raw tree, after which only spaces may follow. -/
def readTree (text : List Char) : Except Failure RawTree := do
  let (tree, rest) ← readObject (readObject readStringOrNull) text
  match skipSpaces rest with
  | [] => .ok tree
  | rest => .error (.into .trailingCharacters rest)

end Inflection.Json
