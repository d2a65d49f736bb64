import Inflection.Proofs.Lexicon.Load
import Inflection.Proofs.Options.Pairs

/-!
# Asking for the tokens of a lexicon

A call asks for a token by the name of its kind, and the keys of switches ask for nothing.  The
mark before the name of a strict kind keeps it apart from those keys, and loading refuses kinds
named like them; registrations do not, so a loose kind may be named like a switch, and then no
call asks for its tokens.

## Main statements

* `Options.exists_requested_iff`: a token can be asked for unless its kind is a loose one that is
  named like a switch.
* `Lexicon.kinds_of_load`: a loaded lexicon has no kind that is named like a switch.
* `Lexicon.asked_for_iff_not_reserved`: which tokens of a lexicon a call can ask for.
-/

namespace Inflection

/-! ## Keys that ask for a kind -/

namespace Options

theorem get?_gathered_single {key value : String} (h : isReservedKey key = false) :
    (gathered [(key, value)]).get? key = some value := by
  rw [gathered, List.foldl_cons, List.foldl_nil, get?_insertIfValid, h]
  simp

/-- The key of a switch holds no request, whatever pairs are given. -/
theorem get?_of_isReservedKey {pairs : List (String × String)} {o : Options}
    (h : ofPairs pairs = .ok o) {key : String} (hkey : isReservedKey key) : o.get? key = none := by
  obtain ⟨-, rfl⟩ := ofPairs_eq_ok_iff.1 h
  rw [get?_gathered, lastValue?_plain, if_pos hkey]

/-- A pair whose key is no switch is a request. -/
theorem ofPairs_single {key value : String} (h : isReservedKey key = false) :
    ofPairs [(key, value)] = .ok (gathered [(key, value)]) := by
  refine ofPairs_eq_ok_iff.2 ⟨?_, rfl⟩
  intro p hp
  obtain rfl := List.mem_singleton.1 hp
  rintro ⟨hkey, -⟩
  rw [h] at hkey
  cases hkey

/-- A token can be asked for, unless its kind is a loose one that is named like a switch. -/
theorem exists_requested_iff {strict : Bool} {kind name : String} (hname : name ≠ "") :
    (∃ pairs o, ofPairs pairs = .ok o ∧ o.requested? kind strict = some name) ↔
      strict ∨ isReservedKey kind = false := by
  refine ⟨?_, ?_⟩
  · rintro ⟨pairs, o, ho, hrequest⟩
    cases strict with
    | true => exact .inl rfl
    | false =>
      refine .inr (Bool.eq_false_iff.2 fun hkey => ?_)
      rw [requested?, get?_of_isReservedKey ho hkey] at hrequest
      cases hrequest
  · intro h
    cases strict with
    | true =>
      have hkey := isReservedKey_putMark kind
      refine ⟨[(putMark kind, name)], _, ofPairs_single hkey, ?_⟩
      rw [requested?, get?_gathered_single hkey]
      simp [hname]
    | false =>
      have hkey : isReservedKey kind = false := by simpa using h
      refine ⟨[(kind, name)], _, ofPairs_single hkey, ?_⟩
      rw [requested?, get?_gathered_single hkey]
      simp [hname]

end Options

/-! ## Kinds of a lexicon -/

namespace Lexicon

theorem ne_empty_of_hasTrueToken {d : Lexicon} (hd : d.Built) {strict : Bool} {name kind : String}
    (h : d.hasTrueToken strict name kind) : name ≠ "" := by
  cases strict with
  | false =>
    obtain ⟨t, ht, -⟩ := (Option.any_eq_true _ _).1 h
    exact ne_empty_of_isName (hd.wellFormed_loose.valid (LooseStore.token?_eq_some_iff.1 ht).1).1
  | true =>
    obtain ⟨t, ht, -⟩ := (Option.any_eq_true _ _).1 h
    exact ne_empty_of_isName (hd.wellFormed_strict.valid ht).1

/-- Loading refuses kinds that are named like a switch. -/
theorem kinds_of_load {locale : String} {tree : RawTree} {d : Lexicon}
    (h : load locale tree = .ok d) {kind : String}
    (hkind : d.loose.hasKind kind ∨ d.strict.hasKind kind) : isReservedKey kind = false := by
  have hd := describes_of_load h
  have hloadable := loadable_of_load h
  rcases hkind with hkind | hkind
  · obtain ⟨name, t, ht, rfl⟩ := hd.kind_loose.1 hkind
    obtain ⟨key, entries, hget, hmark, hgives⟩ := hd.loose.1 ht
    have hkey : t.kind = key := by
      cases hgives with
      | plain => rfl
      | pointer => rfl
    rw [hkey, ← stripMark_of_not_isMarked hmark]
    exact (hloadable.kind hget).2
  · obtain ⟨name, t, ht⟩ := hd.kind_strict.1 hkind
    obtain ⟨entries, hget, -⟩ := hd.strict.1 ht
    rw [← stripMark_putMark kind]
    exact (hloadable.kind hget).2

/-- A call can ask for a true token of a strict kind, and for one of a loose kind unless the kind
is named like a switch, which no kind of a loaded lexicon is. -/
theorem asked_for_iff_not_reserved {d : Lexicon} (hd : d.Reachable) :
    (∀ strict name kind, d.hasTrueToken strict name kind →
      ((∃ pairs o, Options.ofPairs pairs = .ok o ∧ o.requested? kind strict = some name) ↔
        strict ∨ isReservedKey kind = false)) ∧
    ∀ locale tree, load locale tree = .ok d →
      ∀ kind, d.loose.hasKind kind ∨ d.strict.hasKind kind → isReservedKey kind = false := by
  refine ⟨?_, ?_⟩
  · intro strict name kind h
    exact Options.exists_requested_iff (ne_empty_of_hasTrueToken hd.toBuilt h)
  · intro locale tree h kind hkind
    exact kinds_of_load h hkind

/-- A loose and a strict kind that registrations name like a switch: the token of the loose one
cannot be asked for, that of the strict one can. -/
theorem asked_for_iff_not_reserved_raises :
    let d : Lexicon := ⟨"en",
      (LooseStore.empty "en").attemptAll [.addToken "m" "inflector_raises" "male"],
      (StrictStore.empty "en").attemptAll [.addToken "m" "inflector_raises" "male"]⟩
    d.loose.kindNames = ["inflector_raises"] ∧ d.hasTrueToken false "m" "inflector_raises" ∧
      (¬∃ pairs o, Options.ofPairs pairs = .ok o ∧
        o.requested? "inflector_raises" false = some "m") ∧
      ∃ pairs o, Options.ofPairs pairs = .ok o ∧
        o.requested? "inflector_raises" true = some "m" := by
  intro d
  have hd : d.Reachable := .built ⟨⟨"en", _, rfl⟩, ⟨"en", _, rfl⟩⟩
  have hloose : d.hasTrueToken false "m" "inflector_raises" := by decide +kernel
  have hstrict : d.hasTrueToken true "m" "inflector_raises" := by decide +kernel
  have h := (asked_for_iff_not_reserved hd).1
  refine ⟨by decide +kernel, hloose, ?_, (h true "m" _ hstrict).2 (.inl rfl)⟩
  intro hasked
  exact absurd ((h false "m" _ hloose).1 hasked) (by decide)

end Lexicon

end Inflection
