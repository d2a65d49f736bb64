import Inflection.Config.Load
import Inflection.Proofs.Json.Names
import Inflection.Proofs.Lexicon.Refusal
import Inflection.Proofs.Text.Bytes

/-!
# Where a refused configuration is at fault

The diagnostic of a tree that is refused marks the first place where the name that the error blames
stands in quotes.  The name is a key of the tree as the configuration has it, so it stands there
unless it is spelled with an escape; and it stands nowhere before, neither by characters nor by
bytes.

## Main statements

* `Diagnostic.marksFirst_find?`: the place that is found is the first one by bytes as well.
* `RawTree.Attests.blames`: the error of loading blames a key of the tree.
* `load_error_located`: the diagnostic of a refused tree marks the first mention of the key in
  quotes.
-/

namespace Inflection

/-! ## Blamed names -/

/-- The key of a tree that an error blames: that of the kind if its name is bad, and else that of
the entry. -/
inductive RawTree.Blames (tree : RawTree) : LoadError → String → Prop
  | kind {locale key : String} (h : tree.contains key) : Blames tree (.badKind locale key) key
  | token {locale key name : String} {value? : Option String} {flaw : TokenFlaw}
      (h : tree.HasEntry key name value?) :
      Blames tree (.badToken locale (stripMark key) name flaw) name
  | pointer {locale key name target : String} {value? : Option String} {flaw : PointerFlaw}
      (h : tree.HasEntry key name value?) :
      Blames tree (.badAlias locale (stripMark key) name target flaw) name
  | duplicated {locale kind kind' name : String} {value? value?' : Option String}
      (h : tree.HasEntry kind name value?) (h' : tree.HasEntry kind' name value?') :
      Blames tree (.duplicatedToken locale name kind kind') name

namespace RawTree

variable {tree : RawTree} {locale name : String} {e : LoadError}

/-- What the error of loading blames is the name that the diagnostic looks for. -/
theorem Attests.blames (h : tree.Attests locale e) :
    tree.Blames e (Config.Diagnostic.blamed e) := by
  cases e with
  | badKind l key => exact .kind h.2.1
  | badToken l kind token flaw =>
    obtain ⟨-, key, value?, rfl, hentry, -⟩ := h
    exact .token hentry
  | badAlias l kind token target flaw =>
    obtain ⟨-, key, value?, rfl, hentry, -⟩ := h
    exact .pointer hentry
  | duplicatedToken l token kind firstKind =>
    obtain ⟨-, -, -, -, ⟨value?, hentry⟩, value?', hentry'⟩ := h
    exact .duplicated hentry hentry'

theorem Blames.eq_blamed (h : tree.Blames e name) : name = Config.Diagnostic.blamed e := by
  cases h with
  | kind => rfl
  | token => rfl
  | pointer => rfl
  | duplicated => rfl

theorem treeNames_of_contains {key : String} (h : tree.contains key) : Json.treeNames tree key := by
  obtain ⟨entries, hget⟩ := Option.isSome_iff_exists.1 h
  exact ⟨(key, entries), SortedMap.mem_toList_iff.2 hget, .inl rfl⟩

theorem treeNames_of_hasEntry {key : String} {value? : Option String}
    (h : tree.HasEntry key name value?) : Json.treeNames tree name := by
  obtain ⟨entries, hkind, hget⟩ := h
  exact ⟨(key, entries), SortedMap.mem_toList_iff.2 hkind,
    .inr ⟨(name, value?), SortedMap.mem_toList_iff.2 hget, .inl rfl⟩⟩

theorem Blames.treeNames (h : tree.Blames e name) : Json.treeNames tree name := by
  cases h with
  | kind h => exact treeNames_of_contains h
  | token h => exact treeNames_of_hasEntry h
  | pointer h => exact treeNames_of_hasEntry h
  | duplicated h => exact treeNames_of_hasEntry h

end RawTree

namespace Config

open Text

/-! ## The first place of a text -/

namespace Diagnostic

/-- The place that is found has the text, and no place before it does. -/
theorem find?_spec {needle cs : List Char} {n : Nat} (h : find? needle cs = some n) :
    (∃ before after, cs = before ++ needle ++ after ∧ byteLength before = n) ∧
      ∀ before after, cs = before ++ needle ++ after → n ≤ byteLength before := by
  induction cs generalizing n with
  | nil =>
    rw [find?] at h
    split at h
    case isTrue hnil =>
      cases h
      exact ⟨⟨[], [], by rw [hnil]; rfl, rfl⟩, fun _ _ _ => Nat.zero_le _⟩
    case isFalse => cases h
  | cons c cs ih =>
    rw [find?] at h
    split at h
    case isTrue hprefix =>
      cases h
      obtain ⟨after, hafter⟩ := List.isPrefixOf_iff_prefix.1 hprefix
      exact ⟨⟨[], after, hafter.symm, rfl⟩, fun _ _ _ => Nat.zero_le _⟩
    case isFalse hprefix =>
      obtain ⟨m, hm, rfl⟩ := Option.map_eq_some_iff.1 h
      obtain ⟨⟨before, after, hcs, hbefore⟩, hfirst⟩ := ih hm
      refine ⟨⟨c :: before, after, congrArg (c :: ·) hcs, ?_⟩, ?_⟩
      · rw [byteLength_cons, hbefore]
      · intro before' after' hcs'
        cases before' with
        | nil => exact absurd (List.isPrefixOf_iff_prefix.2 ⟨after', hcs'.symm⟩) hprefix
        | cons d before' =>
          obtain ⟨rfl, hrest⟩ := List.cons.inj hcs'
          exact Nat.add_le_add_left (hfirst before' after' hrest) _

theorem exists_find?_of_infix {needle cs : List Char} (h : needle <:+: cs) :
    ∃ n, find? needle cs = some n := by
  induction cs with
  | nil => exact ⟨0, if_pos (List.eq_nil_of_infix_nil h)⟩
  | cons c cs ih =>
    rw [find?]
    split
    case isTrue => exact ⟨0, rfl⟩
    case isFalse hprefix =>
      rcases List.infix_cons_iff.1 h with h | h
      · exact absurd (List.isPrefixOf_iff_prefix.2 h) hprefix
      · obtain ⟨n, hn⟩ := ih h
        exact ⟨c.utf8Size + n, by rw [hn]; rfl⟩

end Diagnostic

/-! ## Marked bytes -/

/-- A span marks the first place of a text where some bytes stand. -/
structure Span.MarksFirst (span : Span) (content bytes : List UInt8) : Prop where
  within : span.offset + span.length ≤ content.length
  covers : (content.drop span.offset).take span.length = bytes
  first : ∀ before after, content = before ++ bytes ++ after → span.offset ≤ before.length

namespace Diagnostic

/-- A text that is found by characters is found by bytes. -/
theorem marksFirst_find? {needle cs : List Char} {n : Nat} (hne : needle ≠ [])
    (h : find? needle cs = some n) :
    Span.MarksFirst ⟨n, byteLength needle⟩ (encode cs) (encode needle) := by
  obtain ⟨⟨before, after, rfl, rfl⟩, hfirst⟩ := find?_spec h
  constructor
  case within =>
    simp only [length_encode, byteLength_append]
    omega
  case covers =>
    simp only [encode_append, ← length_encode, List.append_assoc, List.drop_left, List.take_left]
  case first =>
    intro u v huv
    obtain ⟨before', after', hcs, hlength⟩ := exists_of_encode_eq hne huv
    exact hlength ▸ hfirst before' after' hcs

/-- A name in its quotes. -/
def inQuotes (name : String) : String := "\"" ++ name ++ "\""

theorem toList_inQuotes (name : String) :
    (inQuotes name).toList = '"' :: (name.toList ++ ['"']) := by
  simp [inQuotes]

/-- A name that stands in quotes somewhere is marked at the first such place. -/
theorem exists_findQuoted {cs : List Char} {name : String}
    (h : '"' :: (name.toList ++ ['"']) <:+: cs) :
    ∃ span, findQuoted cs name = some span ∧
      span.MarksFirst (encode cs) (inQuotes name).toUTF8.data.toList := by
  obtain ⟨n, hn⟩ := exists_find?_of_infix h
  refine ⟨⟨n, byteLength ('"' :: (name.toList ++ ['"']))⟩, ?_, ?_⟩
  · rw [findQuoted, hn]
    rfl
  · rw [data_toUTF8, toList_inQuotes]
    exact marksFirst_find? (List.cons_ne_nil _ _) hn

end Diagnostic

/-- A configuration that is read as a tree and then refused has a diagnostic that marks bytes of it,
if its names are spelled without escapes: the first place where the key of the tree that the error
blames stands in quotes. -/
theorem load_error_located {content locale : String} {tree : RawTree} {g : Diagnostic}
    (hread : Json.readTree content.toList = .ok tree)
    (hplain : ∀ name ∈ Json.spelledNames content.toList, '\\' ∉ name)
    (hload : load content locale = .error g) :
    ∃ e name span, Lexicon.load locale tree = .error e ∧ g.message = e.message ∧
      tree.Blames e name ∧ g.span? = some span ∧
        span.MarksFirst content.toUTF8.data.toList
          (Diagnostic.inQuotes name).toUTF8.data.toList := by
  simp only [load, hread] at hload
  cases hlexicon : Lexicon.load locale tree with
  | ok d =>
    rw [hlexicon] at hload
    cases hload
  | error e =>
    rw [hlexicon] at hload
    cases hload
    have hblames := (Lexicon.refuses_of_load hlexicon).attests.blames
    have hspelled := Json.mem_spelledNames_of_readTree hread hplain hblames.treeNames
    obtain ⟨span, hspan, hmarks⟩ :=
      Diagnostic.exists_findQuoted (Json.infix_of_mem_spelledNames hspelled)
    refine ⟨e, _, span, rfl, rfl, hblames, hspan, ?_⟩
    rw [data_toUTF8]
    exact hmarks

/-- An alias that leads nowhere, after a value that mentions it in escaped quotes. -/
theorem load_error_located_pointer :
    let content := r#"{"é": {"m": "\"he\"", "he": "@x"}}"#
    let e : LoadError := .badAlias "en" "é" "he" "@x" .leadsNowhere
    load content "en" = .error (.ofLoadError content.toList e) ∧
      (Diagnostic.ofLoadError content.toList e).span? = some ⟨23, 4⟩ ∧
      Span.MarksFirst ⟨23, 4⟩ content.toUTF8.data.toList "\"he\"".toUTF8.data.toList := by
  intro content e
  have hread : Json.readTree content.toList = .ok (SortedMap.ofList
      [("é", SortedMap.ofList [("m", some "\"he\""), ("he", some "@x")])]) := by
    decide +kernel
  have hplain : ∀ name ∈ Json.spelledNames content.toList, '\\' ∉ name := by decide +kernel
  have hload : load content "en" = .error (.ofLoadError content.toList e) := by decide +kernel
  have hmarked : (Diagnostic.ofLoadError content.toList e).span? = some ⟨23, 4⟩ := by
    decide +kernel
  obtain ⟨e', name, span, he, -, hblames, hspan, hmarks⟩ :=
    load_error_located hread hplain hload
  have he' : Lexicon.load "en" (SortedMap.ofList
      [("é", SortedMap.ofList [("m", some "\"he\""), ("he", some "@x")])]) = .error e := by
    decide +kernel
  obtain rfl := Except.error.inj (he.symm.trans he')
  obtain rfl := hblames.eq_blamed
  obtain rfl := Option.some.inj (hspan.symm.trans hmarked)
  exact ⟨hload, hmarked, hmarks⟩

end Config

end Inflection
