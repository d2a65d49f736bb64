import Inflection.Proofs.Json.RoundTrip

/-!
# Reading values of any sort

Raw trees are read by their shape.  What the program writes is of other shapes too: lists, truth
values and numbers.  `Json.read` reads a text as one value of any sort, nested as deep as a
configuration may be, and what is written of a value is read back as that value in either layout.

Of numbers only the naturals are read.  A number ends where its digits do, so a value is read back
before whatever does not go on with a digit.

## Main statements

* `readItems_enclose`: items between brackets are read back if each of them is.
* `readValue_write`: a value is read back from what is written of it.
* `read_pretty`: so is the text of a value with one item to a line.
-/

namespace Inflection.Json

/-! ## Reading -/

/-- Reads a natural number, which does not begin with a zero unless it is zero. -/
def readNat (cs : List Char) : Option (Nat × List Char) :=
  match cs.takeWhile Char.isDigit with
  | [] => none
  | '0' :: _ :: _ => none
  | digits => some (Nat.ofDigitChars 10 digits 0, cs.dropWhile Char.isDigit)

/-- Reads a value that holds no others and is no string. -/
def readScalar : List Char → Option (Json × List Char)
  | 'n' :: 'u' :: 'l' :: 'l' :: rest => some (.null, rest)
  | 't' :: 'r' :: 'u' :: 'e' :: rest => some (.bool true, rest)
  | 'f' :: 'a' :: 'l' :: 's' :: 'e' :: rest => some (.bool false, rest)
  | cs => (readNat cs).map fun p => (.nat p.1, p.2)

section Items

variable {α : Type} (readItem : List Char → Option (α × List Char)) (closing : Char)

/-- Reads the items after the first, each behind a comma, for at most a number of them. -/
def readMoreItems : Nat → List Char → Option (List α × List Char)
  | 0, _ => none
  | bound + 1, cs =>
    match skipSpaces cs with
    | [] => none
    | c :: rest =>
      if c = closing then some ([], rest)
      else if c = ',' then do
        let (item, rest) ← readItem rest
        let (items, rest) ← readMoreItems bound rest
        return (item :: items, rest)
      else none

/-- Reads items after an opening bracket, up to the closing one. -/
def readItems (cs : List Char) : Option (List α × List Char) :=
  match skipSpaces cs with
  | [] => none
  | c :: rest =>
    if c = closing then some ([], rest)
    else do
      let (item, rest) ← readItem (c :: rest)
      let (items, rest) ← readMoreItems readItem closing rest.length rest
      return (item :: items, rest)

/-- Reads a name and its value. -/
def readField (cs : List Char) : Option ((String × α) × List Char) :=
  match skipSpaces cs with
  | '"' :: rest => do
    let (name, rest) ← (readString rest).toOption
    let rest ← (readColon rest).toOption
    let (value, rest) ← readItem rest
    return ((String.ofList name, value), rest)
  | _ => none

end Items

/-- Reads a value, nested to at most a number of levels. -/
def readValue : Nat → List Char → Option (Json × List Char)
  | 0, _ => none
  | depth + 1, cs =>
    match skipSpaces cs with
    | '"' :: rest => (readString rest).toOption.map fun p => (.string (String.ofList p.1), p.2)
    | '[' :: rest => (readItems (readValue depth) ']' rest).map fun p => (.array p.1, p.2)
    | '{' :: rest => (readItems (readField (readValue depth)) '}' rest).map fun p =>
        (.object p.1, p.2)
    | rest => readScalar rest

/-- The levels to which values may be nested. -/
def maxDepth : Nat := 128

/-- The value of a text. -/
def read (text : String) : Option Json := do
  let (value, rest) ← readValue maxDepth text.toList
  if skipSpaces rest = [] then some value else none

/-! ## Numbers -/

/-- A text does not go on with a digit. -/
def EndsNumber (cs : List Char) : Prop := ∀ c, cs.head? = some c → c.isDigit = false

theorem toList_toString (n : Nat) : (toString n).toList = Nat.toDigits 10 n := by
  rw [Nat.toString_eq_repr, Nat.repr, String.toList_ofList]

theorem isDigit_of_mem_toList {n : Nat} {c : Char} (h : c ∈ (toString n).toList) :
    c.isDigit = true := by
  rw [toList_toString] at h
  exact Nat.isDigit_of_mem_toDigits (by decide) (by decide) h

theorem toDigits_ne_zero_cons (n : Nat) (c : Char) (cs : List Char) :
    Nat.toDigits 10 n ≠ '0' :: c :: cs := by
  induction n using Nat.strongRecOn generalizing c cs with
  | ind n ih =>
    intro h
    by_cases hn : n < 10
    case pos =>
      rw [Nat.toDigits_of_lt_base hn] at h
      exact absurd (List.cons.inj h).2.symm (List.cons_ne_nil c cs)
    case neg =>
      rw [Nat.toDigits_of_base_le (by decide) (Nat.le_of_not_lt hn)] at h
      have hvalue := Nat.ofDigitChars_ten_toDigits (n := n / 10)
      -- The digits but the last are those of a smaller number.
      rcases hdigits : Nat.toDigits 10 (n / 10) with _ | ⟨d, _ | ⟨d', ds⟩⟩
      case nil => exact Nat.toDigits_ne_nil hdigits
      case cons.nil =>
        rw [hdigits] at h hvalue
        obtain ⟨rfl, -⟩ := List.cons.inj h
        have hzero : n / 10 = 0 := hvalue.symm
        omega
      case cons.cons =>
        rw [hdigits] at h
        obtain ⟨rfl, -⟩ := List.cons.inj h
        exact ih (n / 10) (by omega) d' ds hdigits

theorem readNat_toString (n : Nat) {rest : List Char} (h : EndsNumber rest) :
    readNat ((toString n).toList ++ rest) = some (n, rest) := by
  have hall : ∀ c ∈ (toString n).toList, c.isDigit = true := fun c hc => isDigit_of_mem_toList hc
  have hrest : rest.takeWhile Char.isDigit = [] ∧ rest.dropWhile Char.isDigit = rest := by
    cases rest with
    | nil => exact ⟨rfl, rfl⟩
    | cons c cs =>
      have hc := h c rfl
      exact ⟨List.takeWhile_cons_of_neg (by simp [hc]), List.dropWhile_cons_of_neg (by simp [hc])⟩
  rw [readNat, List.takeWhile_append_of_pos hall, List.dropWhile_append_of_pos hall, hrest.1,
    hrest.2, List.append_nil, toList_toString]
  split
  case h_1 hnil => exact absurd hnil Nat.toDigits_ne_nil
  case h_2 hzero => exact absurd hzero (toDigits_ne_zero_cons n _ _)
  case h_3 => rw [Nat.ofDigitChars_ten_toDigits]

/-- The text of a number begins with a digit. -/
theorem exists_digit_toString (n : Nat) :
    ∃ c cs, (toString n).toList = c :: cs ∧ c.isDigit = true := by
  have hne : (toString n).toList ≠ [] := by
    rw [toList_toString]
    exact Nat.toDigits_ne_nil
  obtain ⟨c, cs, hcons⟩ := List.exists_cons_of_ne_nil hne
  exact ⟨c, cs, hcons, isDigit_of_mem_toList (hcons ▸ List.mem_cons_self)⟩

theorem isDigit_of_isSpace {c : Char} (h : isSpace c) : c.isDigit = false := by
  simp only [isSpace, Bool.or_eq_true, beq_iff_eq] at h
  rcases h with ((rfl | rfl) | rfl) | rfl <;> rfl

theorem isSpace_of_isDigit {c : Char} (h : c.isDigit = true) : isSpace c = false := by
  cases hspace : isSpace c with
  | false => rfl
  | true => exact absurd h (by rw [isDigit_of_isSpace hspace]; exact Bool.false_ne_true)

/-- No other value begins with a digit. -/
theorem readValue_of_isDigit (levels : Nat) {c : Char} (h : c.isDigit = true) (cs : List Char) :
    readValue (levels + 1) (c :: cs) = (readNat (c :: cs)).map fun p => (.nat p.1, p.2) := by
  rw [readValue, skipSpaces_cons (isSpace_of_isDigit h)]
  split
  case h_4 =>
    rw [readScalar]
    all_goals
      rintro _ ⟨rfl, -⟩
      cases h
  all_goals
    injection ‹c :: cs = _› with hc _
    subst hc
    cases h

/-! ## Items -/

section Items

variable {α : Type} {readItem : List Char → Option (α × List Char)} {l : Layout}

/-- A reader gives an item back from what is written of it, before whatever ends a number. -/
def GivesBack (readItem : List Char → Option (α × List Char)) (written : List Char) (item : α) :
    Prop :=
  ∀ blanks rest, (∀ c ∈ blanks, isSpace c) → EndsNumber rest →
    readItem (blanks ++ (written ++ rest)) = some (item, rest)

/-- A text begins with a character that neither separates items nor closes them. -/
def BeginsItem (written : List Char) : Prop :=
  ∃ c cs, written = c :: cs ∧ isSpace c = false ∧ c ≠ ']' ∧ c ≠ '}'

/-- A bracket that closes items. -/
def IsClosing (c : Char) : Prop := c = ']' ∨ c = '}'

theorem IsClosing.isSpace {c : Char} (h : IsClosing c) : isSpace c = false := by
  rcases h with rfl | rfl <;> rfl

/-- What stands behind an item ends a number. -/
theorem endsNumber_more (writtens : List (List Char)) (sep : List Char) {blanks : List Char}
    (hblanks : ∀ c ∈ blanks, isSpace c) {closing : Char} (hclosing : IsClosing closing)
    (rest : List Char) :
    EndsNumber (writtens.flatMap (',' :: sep ++ ·) ++ (blanks ++ closing :: rest)) := by
  intro c hc
  cases writtens with
  | cons written writtens =>
    cases hc
    rfl
  | nil =>
    cases blanks with
    | cons blank blanks =>
      cases hc
      exact isDigit_of_isSpace (hblanks _ List.mem_cons_self)
    | nil =>
      cases hc
      rcases hclosing with rfl | rfl <;> rfl

/-- Items behind commas are read back, up to the closing bracket. -/
theorem readMoreItems_written (hl : l.Spaced) (depth : Nat) {writtens : List (List Char)}
    {items : List α} (h : List.Forall₂ (GivesBack readItem) writtens items) {blanks : List Char}
    (hblanks : ∀ c ∈ blanks, isSpace c) {closing : Char} (hclosing : IsClosing closing)
    (rest : List Char) {bound : Nat} (hbound : items.length < bound) :
    readMoreItems readItem closing bound
      (writtens.flatMap (',' :: l.lineBreak depth ++ ·) ++ (blanks ++ closing :: rest)) =
        some (items, rest) := by
  induction h generalizing bound with
  | nil =>
    obtain ⟨bound, rfl⟩ := Nat.exists_eq_succ_of_ne_zero (Nat.ne_of_gt hbound)
    rw [List.flatMap_nil, List.nil_append, readMoreItems, skipSpaces_append hblanks,
      skipSpaces_cons hclosing.isSpace]
    exact if_pos rfl
  | @cons written item writtens items hitem _ ih =>
    obtain ⟨bound, rfl⟩ := Nat.exists_eq_succ_of_ne_zero (Nat.ne_of_gt (Nat.zero_lt_of_lt hbound))
    have hcomma : ',' ≠ closing := by
      rcases hclosing with rfl | rfl <;> decide
    have hread := hitem (l.lineBreak depth) _ (hl.lineBreak depth)
      (endsNumber_more writtens (l.lineBreak depth) hblanks hclosing rest)
    rw [List.flatMap_cons, List.append_assoc, List.cons_append, List.cons_append,
      List.append_assoc, readMoreItems, skipSpaces_cons rfl]
    simp only [if_neg hcomma, if_true, hread, ih (Nat.lt_of_succ_lt_succ hbound), bind,
      Option.bind, pure]

/-- Items between brackets are read back if each of them is. -/
theorem readItems_enclose (hl : l.Spaced) (depth : Nat) {writtens : List (List Char)}
    {items : List α} (h : List.Forall₂ (GivesBack readItem) writtens items)
    (hbegins : ∀ written ∈ writtens, BeginsItem written) {closing : Char}
    (hclosing : IsClosing closing) (opening : Char) (rest : List Char) :
    ∃ tail, l.enclose depth opening closing writtens ++ rest = opening :: tail ∧
      readItems readItem closing tail = some (items, rest) := by
  cases h with
  | nil =>
    refine ⟨closing :: rest, rfl, ?_⟩
    rw [readItems, skipSpaces_cons hclosing.isSpace]
    exact if_pos rfl
  | @cons written item writtens items hitem hitems =>
    obtain ⟨c, cs, rfl, hspace, hbracket, hbrace⟩ := hbegins written List.mem_cons_self
    refine ⟨_, enclose_cons_append .., ?_⟩
    have hopen : c ≠ closing := by
      rcases hclosing with rfl | rfl
      · exact hbracket
      · exact hbrace
    have hread := hitem [] _ (fun _ h => absurd h List.not_mem_nil)
      (endsNumber_more writtens (l.lineBreak (depth + 1)) (hl.lineBreak depth) hclosing rest)
    rw [List.nil_append, List.cons_append] at hread
    -- The reader counts the characters that are left, and each further item has a comma.
    have hbound := length_lt_length_more writtens (l.lineBreak (depth + 1)) (l.lineBreak depth)
      rest closing
    rw [hitems.length_eq] at hbound
    have hmore := readMoreItems_written hl (depth + 1) hitems (hl.lineBreak depth)
      hclosing rest hbound
    rw [readItems, skipSpaces_append (hl.lineBreak (depth + 1)), List.cons_append,
      skipSpaces_cons hspace]
    simp only [if_neg hopen, hread, hmore, bind, Option.bind, pure]

/-- A field is read back if its value is. -/
theorem GivesBack.field (hl : l.Spaced) {written : List Char} {value : α}
    (h : GivesBack readItem written value) (name : String) :
    GivesBack (readField readItem) (quote name ++ l.colon ++ written) (name, value) := by
  intro blanks rest hblanks hrest
  obtain ⟨spaces, hspaces, hcolon⟩ := exists_readColon hl (written ++ rest)
  rw [readField, skipSpaces_append hblanks, List.append_assoc, List.append_assoc, quote_append,
    skipSpaces_cons rfl]
  simp only [readString_escape, hcolon, h spaces rest hspaces hrest, Except.toOption, bind,
    Option.bind, pure, String.ofList_toList]

end Items

/-! ## Values -/

/-- A value is nested to at most a number of levels. -/
def Fits : Nat → Json → Prop
  | 0, _ => False
  | depth + 1, array items => ∀ item ∈ items, Fits depth item
  | depth + 1, object fields => ∀ field ∈ fields, Fits depth field.2
  | _ + 1, _ => True

variable {l : Layout}

theorem writeItems_eq_map (depth : Nat) (items : List Json) :
    writeItems l depth items = items.map (write l depth) := by
  induction items with
  | nil => rfl
  | cons item items ih => rw [writeItems_cons, ih, List.map_cons]

theorem beginsItem_enclose (depth : Nat) {opening : Char} (h : isSpace opening = false)
    (hbracket : opening ≠ ']') (hbrace : opening ≠ '}') (closing : Char)
    (items : List (List Char)) : BeginsItem (l.enclose depth opening closing items) := by
  cases items with
  | nil => exact ⟨opening, _, rfl, h, hbracket, hbrace⟩
  | cons item items => exact ⟨opening, _, rfl, h, hbracket, hbrace⟩

theorem beginsItem_quote (s : String) (rest : List Char) : BeginsItem (quote s ++ rest) :=
  ⟨'"', _, quote_append s rest, rfl, by decide, by decide⟩

/-- What is written of a value begins an item. -/
theorem beginsItem_write (depth : Nat) (j : Json) : BeginsItem (write l depth j) := by
  cases j with
  | null => exact ⟨'n', _, rfl, rfl, by decide, by decide⟩
  | bool b => cases b <;> exact ⟨_, _, rfl, rfl, by decide, by decide⟩
  | nat n =>
    obtain ⟨c, cs, hcons, hdigit⟩ := exists_digit_toString n
    refine ⟨c, cs, hcons, isSpace_of_isDigit hdigit, ?_, ?_⟩ <;>
      (rintro rfl; cases hdigit)
  | string s =>
    have h := beginsItem_quote s []
    rwa [List.append_nil] at h
  | array items => exact beginsItem_enclose depth rfl (by decide) (by decide) ']' _
  | object fields => exact beginsItem_enclose depth rfl (by decide) (by decide) '}' _

/-- A value is read back from what is written of it. -/
theorem readValue_write (hl : l.Spaced) {levels : Nat} {j : Json} (h : j.Fits levels)
    (depth : Nat) : GivesBack (readValue levels) (write l depth j) j := by
  induction levels generalizing j depth with
  | zero => cases h
  | succ levels ih =>
    intro blanks rest hblanks hrest
    rw [readValue, skipSpaces_append hblanks]
    cases j with
    | null => rfl
    | bool b => cases b <;> rfl
    | nat n =>
      obtain ⟨c, cs, hcons, hdigit⟩ := exists_digit_toString n
      have hread := readNat_toString n hrest
      rw [hcons] at hread
      rw [← readValue, write_nat, hcons, List.cons_append, readValue_of_isDigit levels hdigit]
      rw [List.cons_append] at hread
      rw [hread, Option.map_some]
    | string s =>
      rw [write_string, quote_append, skipSpaces_cons rfl]
      simp only [readString_escape, Except.toOption, Option.map_some, String.ofList_toList]
    | array items =>
      have hitems : List.Forall₂ (GivesBack (readValue levels)) (writeItems l (depth + 1) items)
          items := by
        rw [writeItems_eq_map, List.forall₂_map_left_iff, List.forall₂_same]
        exact fun item hitem => ih (h item hitem) (depth + 1)
      have hbegins : ∀ written ∈ writeItems l (depth + 1) items, BeginsItem written := by
        rw [writeItems_eq_map, List.forall_mem_map]
        exact fun item _ => beginsItem_write (depth + 1) item
      obtain ⟨tail, htail, hread⟩ :=
        readItems_enclose hl depth hitems hbegins (.inl rfl) '[' rest
      rw [write_array, htail, skipSpaces_cons rfl]
      simp only [hread, Option.map_some]
    | object fields =>
      have hfields : List.Forall₂ (GivesBack (readField (readValue levels)))
          (writeFields l (depth + 1) fields) fields := by
        rw [writeFields_eq_map, List.forall₂_map_left_iff, List.forall₂_same]
        exact fun field hfield => (ih (h field hfield) (depth + 1)).field hl field.1
      have hbegins : ∀ written ∈ writeFields l (depth + 1) fields, BeginsItem written := by
        rw [writeFields_eq_map, List.forall_mem_map]
        intro field _
        rw [List.append_assoc]
        exact beginsItem_quote field.1 _
      obtain ⟨tail, htail, hread⟩ :=
        readItems_enclose hl depth hfields hbegins (.inr rfl) '{' rest
      rw [write_object, htail, skipSpaces_cons rfl]
      simp only [hread, Option.map_some]

/-- The text of a value is read as that value, with a new line behind it or without. -/
theorem read_pretty {j : Json} (h : j.Fits maxDepth) : read (j.pretty ++ "\n") = some j := by
  have hends : EndsNumber ['\n'] := by
    intro c hc
    cases hc
    rfl
  have hread := readValue_write Layout.spaced_pretty h 0 [] ['\n']
    (fun _ h => absurd h List.not_mem_nil) hends
  rw [List.nil_append] at hread
  rw [read, pretty, String.toList_append, String.toList_ofList]
  change (readValue maxDepth (write Layout.pretty 0 j ++ ['\n']) >>= _) = _
  rw [hread]
  rfl

/-- Texts that are no values are refused. -/
example : (read "[10, null]\n").isSome ∧
    ∀ text ∈ ["[10, null,]", "[01]", "[1] [2]", "[\"a]"], (read text).isNone := by
  decide +kernel

end Inflection.Json
