import Inflection.Proofs.Except
import Inflection.Proofs.Json.RoundTrip
import Inflection.SortedMap.Lemmas
import Mathlib.Data.List.TakeWhile

/-!
# Names as they are spelled

The names of a JSON text are its strings that a colon follows.  `spelledNames` finds them by the
quotes alone, without reading the text, and gives them as they are spelled.  A name that is spelled
without a backslash is read as it is spelled, so the names of a tree are among those that are found
in its text, when none of these has an escape.

`Spells cs rest names` says what the part of a text between two places spells; each reader is shown
to keep to it, from the strings up to the tree.

## Main statements

* `exists_of_readString`: what is read off a string, against how it is spelled.
* `infix_of_mem_spelledNames`: a name stands in the text in its quotes.
* `mem_spelledNames_of_readTree`: the names of a tree are spelled in its text.
-/

namespace Inflection

namespace Json

/-! ## Strings as they are spelled -/

/-- The inside of a string as it is spelled, and the text after its closing quote. -/
def endString : List Char → List Char × List Char
  | [] => ([], [])
  | '"' :: cs => ([], cs)
  | '\\' :: c :: cs => ('\\' :: c :: (endString cs).1, (endString cs).2)
  | c :: cs => (c :: (endString cs).1, (endString cs).2)

theorem endString_suffix (cs : List Char) : (endString cs).2 <:+ cs := by
  fun_induction endString cs with
  | case1 => exact List.suffix_rfl
  | case2 cs => exact List.suffix_cons '"' cs
  | case3 c cs ih => exact ih.trans ((List.suffix_cons c cs).trans (List.suffix_cons '\\' _))
  | case4 c cs hquote hescape ih => exact ih.trans (List.suffix_cons c cs)

/-- The names of a JSON text as they are spelled: the insides of the strings that a colon
follows. -/
def spelledNames : List Char → List (List Char)
  | [] => []
  | '"' :: cs =>
    if (skipSpaces (endString cs).2).head? = some ':' then
      (endString cs).1 :: spelledNames (endString cs).2
    else spelledNames (endString cs).2
  | _ :: cs => spelledNames cs
termination_by cs => cs.length
decreasing_by
  all_goals first
    | exact Nat.lt_succ_of_le (endString_suffix cs).length_le
    | exact Nat.lt_succ_self _

theorem spelledNames_cons {c : Char} (hc : c ≠ '"') (cs : List Char) :
    spelledNames (c :: cs) = spelledNames cs := spelledNames.eq_3 _ _ hc

theorem spelledNames_append {front : List Char} (h : '"' ∉ front) (rest : List Char) :
    spelledNames (front ++ rest) = spelledNames rest := by
  induction front with
  | nil => rfl
  | cons c cs ih =>
    rw [List.cons_append, spelledNames_cons (List.ne_of_not_mem_cons h).symm,
      ih (List.not_mem_of_not_mem_cons h)]

/-- A string that does not end with the text is its inside and the closing quote. -/
theorem eq_of_endString {cs : List Char} (h : (endString cs).2 ≠ []) :
    cs = (endString cs).1 ++ '"' :: (endString cs).2 := by
  fun_induction endString cs with
  | case1 => exact absurd rfl h
  | case2 cs => rfl
  | case3 c cs ih => exact congrArg ('\\' :: c :: ·) (ih h)
  | case4 c cs hquote hescape ih => exact congrArg (c :: ·) (ih h)

/-- A name stands in the text in its quotes. -/
theorem infix_of_mem_spelledNames {cs name : List Char} (h : name ∈ spelledNames cs) :
    '"' :: (name ++ ['"']) <:+: cs := by
  fun_induction spelledNames cs with
  | case1 => cases h
  | case2 cs hcolon ih =>
    rcases List.mem_cons.1 h with rfl | h
    · have hrest : (endString cs).2 ≠ [] := by
        intro hnil
        rw [hnil] at hcolon
        cases hcolon
      refine ⟨[], (endString cs).2, ?_⟩
      rw [List.nil_append, List.cons_append, List.append_assoc, List.singleton_append,
        ← eq_of_endString hrest]
    · exact (ih h).trans ((endString_suffix cs).trans (List.suffix_cons '"' cs)).isInfix
  | case3 cs hcolon ih =>
    exact (ih h).trans ((endString_suffix cs).trans (List.suffix_cons '"' cs)).isInfix
  | case4 c cs hc ih => exact (ih h).trans (List.suffix_cons c cs).isInfix

/-! ## Reading strings -/

/-- Characters of a string as they are spelled, of which none closes it. -/
inductive Inside : List Char → Prop
  | nil : Inside []
  | plain {c : Char} {cs : List Char} (hquote : c ≠ '"') (hescape : c ≠ '\\') (h : Inside cs) :
      Inside (c :: cs)
  | escaped (c : Char) {cs : List Char} (h : Inside cs) : Inside ('\\' :: c :: cs)

theorem Inside.append {cs ds : List Char} (h : Inside cs) (hds : Inside ds) :
    Inside (cs ++ ds) := by
  induction h with
  | nil => exact hds
  | plain hquote hescape _ ih => exact .plain hquote hescape ih
  | escaped c _ ih => exact .escaped c ih

theorem Inside.endString_append {inside : List Char} (h : Inside inside) (rest : List Char) :
    endString (inside ++ '"' :: rest) = (inside, rest) := by
  induction h with
  | nil => rfl
  | plain hquote hescape _ ih =>
    rw [List.cons_append, endString.eq_4 _ _ hquote (fun _ _ h _ => hescape h), ih]
  | escaped c _ ih => rw [List.cons_append, List.cons_append, endString, ih]

theorem Inside.ofDigits {cs : List Char} (h : ∀ c ∈ cs, (hexDigit? c).isSome) : Inside cs := by
  induction cs with
  | nil => exact .nil
  | cons c cs ih =>
    obtain ⟨hc, hcs⟩ := List.forall_mem_cons.1 h
    refine .plain ?_ ?_ (ih hcs)
    · rintro rfl
      exact absurd hc (by decide)
    · rintro rfl
      exact absurd hc (by decide)

theorem exists_of_readHex {cs rest : List Char} {n : Nat} (h : readHex cs = .ok (n, rest)) :
    ∃ front, cs = front ++ rest ∧ Inside front := by
  unfold readHex at h
  split at h
  case h_1 a b c d cs =>
    split at h
    case h_1 hvalue =>
      cases h
      refine ⟨[a, b, c, d], rfl, .ofDigits ?_⟩
      simp only [hexValue?, Option.bind_eq_bind, Option.bind_eq_some_iff] at hvalue
      obtain ⟨x, hx, y, hy, z, hz, w, hw, -⟩ := hvalue
      simp [hx, hy, hz, hw]
    case h_2 => cases h
  case h_2 => cases h

theorem exists_of_readLowSurrogate {high : Nat} {cs rest : List Char} {c : Char}
    (h : readLowSurrogate high cs = .ok (c, rest)) :
    ∃ front, cs = front ++ rest ∧ Inside front := by
  unfold readLowSurrogate at h
  split at h
  case h_1 cs =>
    obtain ⟨⟨low, rest'⟩, hhex, h⟩ := bind_eq_ok_iff.1 h
    dsimp only at h
    split at h
    case isTrue =>
      obtain ⟨-, rfl⟩ := Prod.mk.inj (Except.ok.inj h)
      obtain ⟨front, rfl, hfront⟩ := exists_of_readHex hhex
      exact ⟨'\\' :: 'u' :: front, rfl, .escaped 'u' hfront⟩
    case isFalse => cases h
  all_goals cases h

theorem exists_of_readUnicode {cs rest : List Char} {c : Char}
    (h : readUnicode cs = .ok (c, rest)) : ∃ front, cs = front ++ rest ∧ Inside front := by
  obtain ⟨⟨n, rest'⟩, hhex, hpair⟩ := bind_eq_ok_iff.1 h
  obtain ⟨front, rfl, hfront⟩ := exists_of_readHex hhex
  dsimp only at hpair
  split at hpair
  case isTrue => cases hpair
  case isFalse =>
    split at hpair
    case isTrue =>
      obtain ⟨front', rfl, hfront'⟩ := exists_of_readLowSurrogate hpair
      exact ⟨front ++ front', (List.append_assoc ..).symm, hfront.append hfront'⟩
    case isFalse =>
      cases hpair
      exact ⟨front, rfl, hfront⟩

theorem exists_of_readEscape {cs rest : List Char} {c : Char}
    (h : readEscape cs = .ok (c, rest)) :
    ∃ front, cs = front ++ rest ∧ Inside ('\\' :: front) := by
  unfold readEscape at h
  split at h
  case h_1 => cases h
  case h_2 cs =>
    obtain ⟨front, rfl, hfront⟩ := exists_of_readUnicode h
    exact ⟨'u' :: front, rfl, .escaped 'u' hfront⟩
  case h_3 e cs hu =>
    split at h
    case h_1 =>
      cases h
      exact ⟨[e], rfl, .escaped e .nil⟩
    case h_2 => cases h

/-- A character of a string is itself, unless it is spelled with a backslash. -/
theorem exists_of_readChar {cs rest : List Char} {c : Char}
    (h : readChar cs = .ok (some c, rest)) :
    ∃ front, cs = front ++ rest ∧ Inside front ∧ ('\\' ∉ front → front = [c]) := by
  unfold readChar at h
  split at h
  case h_1 => cases h
  case h_2 => cases h
  case h_3 cs =>
    obtain ⟨⟨d, rest'⟩, hescape, h⟩ := map_eq_ok_iff.1 h
    cases h
    obtain ⟨front, rfl, hfront⟩ := exists_of_readEscape hescape
    exact ⟨'\\' :: front, rfl, hfront, fun hplain => absurd List.mem_cons_self hplain⟩
  case h_4 d cs hquote hescape =>
    split at h
    case isTrue => cases h
    case isFalse =>
      cases h
      exact ⟨[c], rfl, .plain hquote hescape .nil, fun _ => rfl⟩

theorem eq_of_readChar_none {cs rest : List Char} (h : readChar cs = .ok (none, rest)) :
    cs = '"' :: rest := by
  unfold readChar at h
  split at h
  case h_1 => cases h
  case h_2 =>
    cases h
    rfl
  case h_3 cs =>
    obtain ⟨⟨d, rest'⟩, -, h⟩ := map_eq_ok_iff.1 h
    cases h
  case h_4 =>
    split at h
    · cases h
    · cases h

/-- A string is read up to its closing quote, and as it is spelled unless it has an escape. -/
theorem exists_of_readString {cs s rest : List Char} (h : readString cs = .ok (s, rest)) :
    ∃ inside, cs = inside ++ '"' :: rest ∧ Inside inside ∧ ('\\' ∉ inside → inside = s) := by
  fun_induction readString cs generalizing s rest with
  | case1 => cases h
  | case2 cs rest' hchar =>
    cases h
    exact ⟨[], eq_of_readChar_none hchar, .nil, fun _ => rfl⟩
  | case3 => cases h
  | case4 cs c rest' hchar s' rest'' hstring ih =>
    cases h
    obtain ⟨front, rfl, hfront, hc⟩ := exists_of_readChar hchar
    obtain ⟨inside, rfl, hinside, hs⟩ := ih hstring
    refine ⟨front ++ inside, (List.append_assoc ..).symm, hfront.append hinside, ?_⟩
    intro hplain
    rw [List.mem_append, not_or] at hplain
    rw [hc hplain.1, hs hplain.2]
    rfl

theorem spelledNames_string {inside : List Char} (h : Inside inside) (rest : List Char) :
    spelledNames ('"' :: (inside ++ '"' :: rest)) =
      (if (skipSpaces rest).head? = some ':' then [inside] else []) ++ spelledNames rest := by
  rw [spelledNames, h.endString_append]
  split
  · rfl
  · rfl

theorem skipSpaces_of_readColon {cs rest : List Char} (h : readColon cs = .ok rest) :
    skipSpaces cs = ':' :: rest := by
  unfold readColon at h
  split at h
  case h_1 hskip =>
    cases h
    exact hskip
  all_goals cases h

/-! ## What a part of a text spells -/

/-- The part of a text before a rest spells some names, unless one of those that it has is spelled
with an escape. -/
def Spells (cs rest : List Char) (names : String → Prop) : Prop :=
  ∃ spelled, spelledNames cs = spelled ++ spelledNames rest ∧
    ((∀ name ∈ spelled, '\\' ∉ name) → ∀ name, names name → name.toList ∈ spelled)

namespace Spells

variable {cs ds rest front : List Char} {names names' : String → Prop}

theorem mono (h : Spells cs rest names) (hnames : ∀ name, names' name → names name) :
    Spells cs rest names' := by
  obtain ⟨spelled, hspelled, hmem⟩ := h
  exact ⟨spelled, hspelled, fun hplain name hname => hmem hplain name (hnames name hname)⟩

theorem trans (h : Spells cs ds names) (h' : Spells ds rest names') :
    Spells cs rest fun name => names name ∨ names' name := by
  obtain ⟨spelled, hspelled, hmem⟩ := h
  obtain ⟨spelled', hspelled', hmem'⟩ := h'
  refine ⟨spelled ++ spelled', by rw [hspelled, hspelled', List.append_assoc], ?_⟩
  intro hplain name hname
  obtain ⟨hplain, hplain'⟩ := List.forall_mem_append.1 hplain
  rcases hname with hname | hname
  · exact List.mem_append_left _ (hmem hplain name hname)
  · exact List.mem_append_right _ (hmem' hplain' name hname)

/-- No name is spelled without a quote. -/
theorem append (h : '"' ∉ front) (rest : List Char) :
    Spells (front ++ rest) rest fun _ => False :=
  ⟨[], spelledNames_append h rest, fun _ _ hname => hname.elim⟩

theorem cons {c : Char} (h : c ≠ '"') (rest : List Char) :
    Spells (c :: rest) rest fun _ => False :=
  have hfront : '"' ∉ [c] := by simpa using h.symm
  append hfront rest

theorem skipSpaces (cs : List Char) : Spells cs (skipSpaces cs) fun _ => False := by
  have hfront : '"' ∉ cs.takeWhile isSpace := fun hmem =>
    absurd (List.mem_takeWhile_imp hmem) (by decide)
  have h := append hfront (Json.skipSpaces cs)
  rwa [Json.skipSpaces, List.takeWhile_append_dropWhile] at h

/-- After a part without names. -/
theorem after (h : Spells cs ds fun _ => False) (h' : Spells ds rest names) :
    Spells cs rest names := (h.trans h').mono fun _ => .inr

/-- Before a part without names. -/
theorem before (h : Spells cs ds names) (h' : Spells ds rest fun _ => False) :
    Spells cs rest names := (h.trans h').mono fun _ => .inl

/-- After spaces, a character that begins no string. -/
theorem afterSpaces {c : Char} (hskip : Json.skipSpaces cs = c :: rest) (hc : c ≠ '"') :
    Spells cs rest fun _ => False := by
  have h := skipSpaces cs
  rw [hskip] at h
  exact h.after (cons hc rest)

/-- A string need not spell a name. -/
theorem string {s : List Char} (h : readString cs = .ok (s, rest)) :
    Spells ('"' :: cs) rest fun _ => False := by
  obtain ⟨inside, rfl, hinside, -⟩ := exists_of_readString h
  exact ⟨_, spelledNames_string hinside rest, fun _ _ hname => hname.elim⟩

/-- A string before a colon spells a name. -/
theorem name {s : List Char} (h : readString cs = .ok (s, ds)) (hcolon : readColon ds = .ok rest) :
    Spells ('"' :: cs) rest (· = String.ofList s) := by
  obtain ⟨inside, rfl, hinside, hs⟩ := exists_of_readString h
  have hskip := skipSpaces_of_readColon hcolon
  have hname : Spells ('"' :: (inside ++ '"' :: ds)) ds (· = String.ofList s) := by
    refine ⟨_, spelledNames_string hinside ds, ?_⟩
    rintro hplain _ rfl
    rw [hskip] at hplain ⊢
    rw [String.toList_ofList, ← hs (hplain inside List.mem_cons_self)]
    exact List.mem_cons_self
  exact hname.before (afterSpaces hskip (by decide))

end Spells

/-! ## Reading trees -/

/-- The name of an entry, and the names of its value. -/
def EntryNames {α : Type} (names : α → String → Prop) (e : String × α) (name : String) : Prop :=
  name = e.1 ∨ names e.2 name

/-- The names of some entries and of their values. -/
def EntriesNames {α : Type} (names : α → String → Prop) (es : List (String × α))
    (name : String) : Prop :=
  ∃ e ∈ es, EntryNames names e name

/-- A reader of values that passes over no name without reading it. -/
def Keeps {α : Type} (read : List Char → Except Failure (α × List Char))
    (names : α → String → Prop) : Prop :=
  ∀ {cs a rest}, read cs = .ok (a, rest) → Spells cs rest (names a)

section Object

variable {α : Type} {read : List Char → Except Failure (α × List Char)}
  {names : α → String → Prop} {cs rest : List Char}

theorem spells_readEntry (hread : Keeps read names) {e : String × α}
    (h : readEntry read cs = .ok (e, rest)) : Spells cs rest (EntryNames names e) := by
  unfold readEntry at h
  split at h
  case h_1 cs =>
    obtain ⟨⟨s, rest₁⟩, hstring, h⟩ := bind_eq_ok_iff.1 h
    obtain ⟨rest₂, hcolon, h⟩ := bind_eq_ok_iff.1 h
    obtain ⟨⟨value, rest₃⟩, hvalue, h⟩ := bind_eq_ok_iff.1 h
    cases h
    exact (Spells.name hstring hcolon).trans (hread hvalue)
  case h_2 => cases h

theorem Spells.entries {ds : List Char} {e : String × α} {es : List (String × α)}
    (h : Spells cs ds (EntryNames names e)) (hes : Spells ds rest (EntriesNames names es)) :
    Spells cs rest (EntriesNames names (e :: es)) := by
  refine (h.trans hes).mono ?_
  rintro name ⟨f, hf, hname⟩
  rcases List.mem_cons.1 hf with rfl | hf
  · exact .inl hname
  · exact .inr ⟨f, hf, hname⟩

/-- A brace that closes an object. -/
theorem spells_close (h : skipSpaces cs = '}' :: rest) :
    Spells cs rest (EntriesNames names []) := by
  refine (Spells.afterSpaces h (by decide)).mono ?_
  rintro name ⟨e, he, -⟩
  cases he

theorem spells_readMore (hread : Keeps read names) {n : Nat} {es : List (String × α)}
    (h : readMore read n cs = .ok (es, rest)) : Spells cs rest (EntriesNames names es) := by
  induction n generalizing cs es with
  | zero => cases h
  | succ n ih =>
    rw [readMore] at h
    split at h
    case h_1 hskip =>
      cases h
      exact spells_close hskip
    case h_2 rest₁ hskip =>
      split at h
      case h_1 => cases h
      case h_2 => cases h
      case h_3 =>
        obtain ⟨⟨e, rest₂⟩, hentry, h⟩ := bind_eq_ok_iff.1 h
        obtain ⟨⟨es', rest₃⟩, hmore, h⟩ := bind_eq_ok_iff.1 h
        cases h
        have hcomma := Spells.afterSpaces hskip (by decide)
        exact (hcomma.after (.skipSpaces rest₁)).after
          ((spells_readEntry hread hentry).entries (ih hmore))
    case h_3 => cases h
    case h_4 => cases h

theorem spells_readEntries (hread : Keeps read names) {es : List (String × α)}
    (h : readEntries read cs = .ok (es, rest)) : Spells cs rest (EntriesNames names es) := by
  unfold readEntries at h
  split at h
  case h_1 hskip =>
    cases h
    exact spells_close hskip
  case h_2 => cases h
  case h_3 =>
    obtain ⟨⟨e, rest₁⟩, hentry, h⟩ := bind_eq_ok_iff.1 h
    obtain ⟨⟨es', rest₂⟩, hmore, h⟩ := bind_eq_ok_iff.1 h
    cases h
    exact (Spells.skipSpaces cs).after
      ((spells_readEntry hread hentry).entries (spells_readMore hread hmore))

/-- An object has no names but those of the entries that are read. -/
theorem keeps_readObject (hread : Keeps read names) :
    Keeps (readObject read) fun m => EntriesNames names m.toList := by
  intro cs m rest h
  unfold readObject at h
  split at h
  case h_1 rest₁ hskip =>
    obtain ⟨⟨es, rest₂⟩, hentries, h⟩ := bind_eq_ok_iff.1 h
    cases h
    have hbrace := Spells.afterSpaces hskip (by decide)
    refine (hbrace.after (spells_readEntries hread hentries)).mono ?_
    rintro name ⟨e, he, hname⟩
    exact ⟨e, SortedMap.mem_of_mem_toList_ofList he, hname⟩
  case h_2 => cases h
  case h_3 => cases h

end Object

theorem eq_append_of_readWord {word cs rest : List Char} (h : readWord word cs = .ok rest) :
    cs = word ++ rest := by
  induction word generalizing cs with
  | nil =>
    cases h
    rfl
  | cons w ws ih =>
    cases cs with
    | nil => cases h
    | cons c cs =>
      rw [readWord] at h
      split at h
      case isTrue hc => rw [hc, ih h, List.cons_append]
      case isFalse => cases h

theorem keeps_readStringOrNull : Keeps readStringOrNull fun _ _ => False := by
  intro cs value? rest h
  unfold readStringOrNull at h
  have hspaces := Spells.skipSpaces cs
  split at h
  case h_1 rest₁ hskip =>
    obtain ⟨rest₂, hword, h⟩ := map_eq_ok_iff.1 h
    cases h
    obtain rfl := eq_append_of_readWord hword
    rw [hskip] at hspaces
    have hword : '"' ∉ ['n', 'u', 'l', 'l'] := by decide
    exact hspaces.after (.append hword rest)
  case h_2 rest₁ hskip =>
    obtain ⟨⟨s, rest₂⟩, hstring, h⟩ := map_eq_ok_iff.1 h
    cases h
    rw [hskip] at hspaces
    exact hspaces.after (.string hstring)
  case h_3 => cases h
  case h_4 => cases h

/-- The names of a tree: those of its kinds and of their entries. -/
def treeNames (tree : RawTree) (name : String) : Prop :=
  EntriesNames (fun kind => EntriesNames (fun _ _ => False) kind.toList) tree.toList name

/-- The names of a tree are spelled in the text that it is read from, unless one of the names in the
text has an escape. -/
theorem mem_spelledNames_of_readTree {text : List Char} {tree : RawTree}
    (h : readTree text = .ok tree) (hplain : ∀ name ∈ spelledNames text, '\\' ∉ name)
    {name : String} (hname : treeNames tree name) : name.toList ∈ spelledNames text := by
  obtain ⟨⟨tree', rest⟩, hread, h⟩ := bind_eq_ok_iff.1 h
  dsimp only at h
  split at h
  case h_1 =>
    cases h
    obtain ⟨spelled, hspelled, hmem⟩ :=
      keeps_readObject (keeps_readObject keeps_readStringOrNull) hread
    rw [hspelled] at hplain ⊢
    exact List.mem_append_left _ (hmem (List.forall_mem_append.1 hplain).1 name hname)
  case h_2 => cases h

end Json

end Inflection
