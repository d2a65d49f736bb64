import Inflection.Json.Reader
import Mathlib.Data.List.Forall2

/-!
# Reading back what is written

A string is read back whatever it holds: a character is escaped to what the reader takes for that
character.  An object is read back if the values of its fields are, in every layout that sets its
parts apart by spaces alone.

## Main statements

* `readString_escape`: a string is read back up to its closing quote.
* `Restores.object`: an object of values that are read back is read back.
-/

namespace Inflection.Json

/-! ## Spaces -/

theorem skipSpaces_append {blanks : List Char} (h : ∀ c ∈ blanks, isSpace c) (cs : List Char) :
    skipSpaces (blanks ++ cs) = skipSpaces cs :=
  List.dropWhile_append_of_pos h

theorem skipSpaces_cons {c : Char} (h : isSpace c = false) (cs : List Char) :
    skipSpaces (c :: cs) = c :: cs :=
  List.dropWhile_cons_of_neg (by simp [h])

/-- A layout that sets the parts of a text apart by spaces alone. -/
structure Layout.Spaced (l : Layout) : Prop where
  lineBreak : ∀ depth, ∀ c ∈ l.lineBreak depth, isSpace c
  colon : ∃ blanks, l.colon = ':' :: blanks ∧ ∀ c ∈ blanks, isSpace c

theorem Layout.spaced_compact : Layout.compact.Spaced :=
  ⟨fun _ _ h => absurd h List.not_mem_nil, [], rfl, fun _ h => absurd h List.not_mem_nil⟩

theorem Layout.spaced_pretty : Layout.pretty.Spaced := by
  refine ⟨?_, [' '], rfl, List.forall_mem_singleton.2 rfl⟩
  intro depth c hc
  rcases List.mem_cons.1 hc with rfl | hc
  · rfl
  · rw [List.eq_of_mem_replicate hc]
    rfl

/-! ## Strings -/

theorem hexValue?_digitChar : ∀ n < 0x20,
    hexValue? '0' '0' (Nat.digitChar (n / 16)) (Nat.digitChar (n % 16)) = some n := by
  decide

/-- A control character is read back from its number. -/
theorem readUnicode_digitChar {c : Char} (h : c.toNat < 0x20) (rest : List Char) :
    readUnicode ('0' :: '0' :: Nat.digitChar (c.toNat / 16) :: Nat.digitChar (c.toNat % 16) ::
      rest) = .ok (c, rest) := by
  have hlow : isLowSurrogate c.toNat = false := by
    rw [isLowSurrogate, Bool.and_eq_false_iff, decide_eq_false_iff_not]
    omega
  have hhigh : isHighSurrogate c.toNat = false := by
    rw [isHighSurrogate, Bool.and_eq_false_iff, decide_eq_false_iff_not]
    omega
  rw [readUnicode, readHex, hexValue?_digitChar c.toNat h]
  simp only [bind, Except.bind, hlow, hhigh, Bool.false_eq_true, if_false, Char.ofNat_toNat]

/-- A character is read back from its escape. -/
theorem readChar_escape (c : Char) (rest : List Char) :
    readChar (escape c ++ rest) = .ok (some c, rest) := by
  unfold escape
  split
  case h_1 e he =>
    unfold shortEscape? at he
    split at he
    case h_8 => cases he
    all_goals
      obtain rfl := Option.some.inj he
      rfl
  case h_2 he =>
    split
    case isTrue hc =>
      change (readUnicode ('0' :: '0' :: _ :: _ :: rest)).map _ = _
      rw [readUnicode_digitChar hc]
      rfl
    case isFalse hc =>
      have hquote : c ≠ '"' := by
        rintro rfl
        cases he
      have hbackslash : c ≠ '\\' := by
        rintro rfl
        cases he
      rw [List.singleton_append, readChar.eq_4 _ _ hquote hbackslash, if_neg hc]

theorem readString_of_quote {cs rest : List Char} (h : readChar cs = .ok (none, rest)) :
    readString cs = .ok ([], rest) := by
  rw [readString]
  split
  all_goals simp_all

theorem readString_of_char {cs rest : List Char} {c : Char}
    (h : readChar cs = .ok (some c, rest)) :
    readString cs = (readString rest).map fun p => (c :: p.1, p.2) := by
  rw [readString]
  split
  all_goals simp_all
  cases readString rest <;> rfl

/-- A string is read back up to its closing quote. -/
theorem readString_escape (cs rest : List Char) :
    readString (cs.flatMap escape ++ '"' :: rest) = .ok (cs, rest) := by
  induction cs with
  | nil => exact readString_of_quote rfl
  | cons c cs ih =>
    rw [List.flatMap_cons, List.append_assoc, readString_of_char (readChar_escape c _), ih]
    rfl

theorem quote_append (s : String) (rest : List Char) :
    quote s ++ rest = '"' :: (s.toList.flatMap escape ++ '"' :: rest) := by
  rw [quote, List.cons_append, List.append_assoc, List.singleton_append]

/-! ## Values -/

section Restores

variable {α : Type} {readValue : List Char → Except Failure (α × List Char)} {l : Layout}

/-- A reader gives a value back from what is written of it, whatever follows. -/
def Restores (readValue : List Char → Except Failure (α × List Char)) (written : List Char)
    (value : α) : Prop :=
  ∀ blanks rest, (∀ c ∈ blanks, isSpace c) →
    readValue (blanks ++ (written ++ rest)) = .ok (value, rest)

theorem Restores.ofString? (l : Layout) (depth : Nat) (value? : Option String) :
    Restores readStringOrNull (write l depth (.ofString? value?)) value? := by
  intro blanks rest hblanks
  rw [readStringOrNull, skipSpaces_append hblanks]
  cases value? with
  | none => rfl
  | some s =>
    rw [Json.ofString?, write_string, quote_append, skipSpaces_cons rfl]
    change (readString _).map _ = _
    rw [readString_escape]
    exact congrArg (fun s => Except.ok (some s, rest)) String.ofList_toList

/-! ## Objects -/

/-- The fields of an object are read back as some entries, each at the given depth. -/
abbrev FieldsRestored (readValue : List Char → Except Failure (α × List Char)) (l : Layout)
    (depth : Nat) : List (String × Json) → List (String × α) → Prop :=
  List.Forall₂ fun f e => f.1 = e.1 ∧ Restores readValue (write l depth f.2) e.2

/-- Items behind the first stand each behind a comma. -/
theorem intercalate_cons (sep item : List Char) (items : List (List Char)) :
    sep.intercalate (item :: items) = item ++ items.flatMap (sep ++ ·) := by
  induction items generalizing item with
  | nil => rw [List.intercalate_singleton, List.flatMap_nil, List.append_nil]
  | cons item' items ih =>
    rw [List.intercalate_cons_cons, ih, List.flatMap_cons, List.append_assoc, List.append_assoc]

/-- Items between brackets: the first, the others each behind a comma, and the closing bracket. -/
theorem enclose_cons_append (depth : Nat) (opening closing : Char) (item : List Char)
    (items : List (List Char)) (rest : List Char) :
    l.enclose depth opening closing (item :: items) ++ rest =
      opening :: (l.lineBreak (depth + 1) ++ (item ++
        (items.flatMap (',' :: l.lineBreak (depth + 1) ++ ·) ++
          (l.lineBreak depth ++ closing :: rest)))) := by
  rw [Layout.enclose, intercalate_cons]
  · simp only [List.cons_append, List.append_assoc, List.nil_append]
  · exact List.cons_ne_nil _ _

/-- Items that stand behind commas are fewer than the characters up to the end. -/
theorem length_lt_length_more (items : List (List Char)) (sep blanks rest : List Char)
    (closing : Char) :
    items.length < (items.flatMap (',' :: sep ++ ·) ++ (blanks ++ closing :: rest)).length := by
  induction items with
  | nil =>
    rw [List.flatMap_nil, List.nil_append, List.length_append, List.length_cons, List.length_nil]
    omega
  | cons item items ih =>
    rw [List.flatMap_cons, List.append_assoc, List.length_append, List.cons_append,
      List.length_cons, List.length_cons]
    omega

theorem writeFields_eq_map (depth : Nat) (fields : List (String × Json)) :
    writeFields l depth fields =
      fields.map fun f => quote f.1 ++ l.colon ++ write l depth f.2 := by
  induction fields with
  | nil => rfl
  | cons field fields ih => rw [writeFields_cons, ih, List.map_cons]

theorem exists_readColon (hl : l.Spaced) (rest : List Char) :
    ∃ blanks, (∀ c ∈ blanks, isSpace c) ∧ readColon (l.colon ++ rest) = .ok (blanks ++ rest) := by
  obtain ⟨blanks, hcolon, hblanks⟩ := hl.colon
  refine ⟨blanks, hblanks, ?_⟩
  rw [hcolon, List.cons_append, readColon, skipSpaces_cons rfl]
  rfl

/-- A field is read back. -/
theorem readEntry_written (hl : l.Spaced) {value : α} {written : List Char}
    (h : Restores readValue written value) (name : String) (rest : List Char) :
    readEntry readValue (quote name ++ l.colon ++ written ++ rest) =
      .ok ((name, value), rest) := by
  obtain ⟨blanks, hblanks, hread⟩ := exists_readColon hl (written ++ rest)
  rw [List.append_assoc, List.append_assoc, quote_append]
  simp only [readEntry, readString_escape, hread, h blanks rest hblanks, bind, Except.bind,
    String.ofList_toList]

theorem readMore_close {blanks : List Char} (hblanks : ∀ c ∈ blanks, isSpace c)
    (rest : List Char) (bound : Nat) :
    readMore readValue (bound + 1) (blanks ++ '}' :: rest) = .ok ([], rest) := by
  rw [readMore, skipSpaces_append hblanks, skipSpaces_cons rfl]
  rfl

/-- A field behind a comma is read back before the others. -/
theorem readMore_field (hl : l.Spaced) {value : α} {written : List Char}
    (h : Restores readValue written value) (name : String) (depth : Nat) {bound : Nat}
    {cs rest : List Char} {es : List (String × α)}
    (hmore : readMore readValue bound cs = .ok (es, rest)) :
    readMore readValue (bound + 1)
      (',' :: l.lineBreak depth ++ (quote name ++ l.colon ++ written ++ cs)) =
        .ok ((name, value) :: es, rest) := by
  have hentry := readEntry_written hl h name cs
  obtain ⟨tail, htail⟩ : ∃ tail, quote name ++ l.colon ++ written ++ cs = '"' :: tail := ⟨_, rfl⟩
  rw [htail] at hentry ⊢
  have hskip : skipSpaces (l.lineBreak depth ++ '"' :: tail) = '"' :: tail := by
    rw [skipSpaces_append (hl.lineBreak depth), skipSpaces_cons rfl]
  rw [List.cons_append, readMore, skipSpaces_cons rfl]
  simp only [hskip]
  change (readEntry readValue ('"' :: tail) >>= _) = _
  rw [hentry]
  change (readMore readValue bound cs >>= _) = _
  rw [hmore]
  rfl

/-- The fields after the first are read back, up to the closing brace. -/
theorem readMore_written (hl : l.Spaced) {depth : Nat} {fields : List (String × Json)}
    {entries : List (String × α)} (h : FieldsRestored readValue l depth fields entries)
    {blanks : List Char} (hblanks : ∀ c ∈ blanks, isSpace c) (rest : List Char) {bound : Nat}
    (hbound : entries.length < bound) :
    readMore readValue bound
      ((writeFields l depth fields).flatMap (',' :: l.lineBreak depth ++ ·) ++
        (blanks ++ '}' :: rest)) = .ok (entries, rest) := by
  induction h generalizing bound with
  | nil =>
    obtain ⟨bound, rfl⟩ := Nat.exists_eq_succ_of_ne_zero (Nat.ne_of_gt hbound)
    exact readMore_close hblanks rest bound
  | @cons field entry fields entries hfield _ ih =>
    obtain ⟨bound, rfl⟩ := Nat.exists_eq_succ_of_ne_zero (Nat.ne_of_gt (Nat.zero_lt_of_lt hbound))
    obtain ⟨name, json⟩ := field
    obtain ⟨_, value⟩ := entry
    obtain ⟨rfl, hvalue⟩ := hfield
    have hmore := ih (Nat.lt_of_succ_lt_succ hbound)
    rw [writeFields_cons, List.flatMap_cons, List.append_assoc, List.append_assoc]
    exact readMore_field hl hvalue name depth hmore

theorem readEntries_field (hl : l.Spaced) {value : α} {written : List Char}
    (h : Restores readValue written value) (name : String) (depth : Nat)
    {cs rest : List Char} {es : List (String × α)}
    (hmore : readMore readValue cs.length cs = .ok (es, rest)) :
    readEntries readValue (l.lineBreak depth ++ (quote name ++ l.colon ++ written ++ cs)) =
      .ok ((name, value) :: es, rest) := by
  have hentry := readEntry_written hl h name cs
  obtain ⟨tail, htail⟩ : ∃ tail, quote name ++ l.colon ++ written ++ cs = '"' :: tail := ⟨_, rfl⟩
  rw [htail] at hentry ⊢
  rw [readEntries, skipSpaces_append (hl.lineBreak depth), skipSpaces_cons rfl]
  change (readEntry readValue ('"' :: tail) >>= _) = _
  rw [hentry]
  change (readMore readValue cs.length cs >>= _) = _
  rw [hmore]
  rfl

/-- An object is read back if the values of its fields are. -/
theorem Restores.object (hl : l.Spaced) {depth : Nat} {fields : List (String × Json)}
    {entries : List (String × α)} (h : FieldsRestored readValue l (depth + 1) fields entries) :
    Restores (readObject readValue) (write l depth (.object fields))
      (SortedMap.ofList entries) := by
  intro blanks rest hblanks
  rw [readObject, skipSpaces_append hblanks, write_object]
  cases h with
  | nil => rfl
  | @cons field entry fields entries hfield hfields =>
    obtain ⟨name, json⟩ := field
    obtain ⟨_, value⟩ := entry
    obtain ⟨rfl, hvalue⟩ := hfield
    -- The reader counts the characters that are left, and each further field has a comma.
    have hbound := length_lt_length_more (writeFields l (depth + 1) fields)
      (l.lineBreak (depth + 1)) (l.lineBreak depth) rest '}'
    have hlength : (writeFields l (depth + 1) fields).length = entries.length := by
      rw [writeFields_eq_map, List.length_map, hfields.length_eq]
    rw [hlength] at hbound
    have hmore := readMore_written hl hfields (hl.lineBreak depth) rest hbound
    rw [writeFields_cons, enclose_cons_append, skipSpaces_cons rfl]
    change (readEntries readValue _ >>= _) = _
    rw [readEntries_field hl hvalue name (depth + 1) hmore]
    rfl

end Restores

end Inflection.Json
