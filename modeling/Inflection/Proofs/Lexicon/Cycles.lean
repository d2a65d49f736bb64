import Inflection.Proofs.Lexicon.Passes
import Mathlib.Data.List.Perm.Subperm

/-!
# Cycles among pointers

Following a pointer counts its look-ups and keeps nothing of the names that it has seen, so a walk
is given up alike for being long and for being cyclic.  Here the walk is said without the count:
`RawKind.next?` is one step, from a name to the name in the value of its entry, and
`RawKind.nameAt` the name after a number of steps.

Every name that a walk goes on from is an alias.  So a walk that visits no name twice is over after
as many steps as there are aliases, and in a kind with fewer aliases than look-ups the cyclic walks
alone are given up.  The bound cannot be raised for defaults, which are no aliases: `follow_chain`
says that a chain of as many aliases as look-ups is given up as well.

## Main statements

* `RawKind.repeats_iff_isSome_nameAt`: a walk visits a name twice when it takes more steps than
  there are aliases.
* `RawKind.follow_eq_tooLongOrCyclic_iff`: the look-ups are used up when the walk takes as many
  steps.
* `RawKind.follow_eq_ok_iff_stopsAt`: a name is found when the walk stops there in time.
* `KindEntry.resolve_alias_eq_cyclic_iff`: from an alias, in a kind with as many aliases as
  look-ups, the cyclic walks alone are given up.
* `KindEntry.resolve_tells_cycles`: which walks are given up, and which have a result.
-/

namespace Inflection

namespace RawKind

/-! ## The walk -/

/-- The name that a walk goes on to from a name.  It stops at a text that is no name, at the name
of the default, and at a name that has no entry, no value, or a value that is no pointer. -/
def next? (entries : RawKind) (name : String) : Option String :=
  if isName name && name != defaultName then
    ((entries.get? name).join.filter isMarked).map stripMark
  else none

/-- The name that the walk from a first name visits after a number of steps, if it does not stop
before. -/
def nameAt (entries : RawKind) (first : String) : Nat → Option String
  | 0 => some first
  | n + 1 => (entries.nameAt first n).bind entries.next?

/-- The walk from a first name visits some name twice.  The entry whose value holds the first name
is where the walk starts, not a name that it visits: at the default it would stop at once. -/
def Repeats (entries : RawKind) (first : String) : Prop :=
  ∃ m n name, m < n ∧ entries.nameAt first m = some name ∧ entries.nameAt first n = some name

/-- The walk from a first name stops at a name, after a number of steps. -/
def StopsAt (entries : RawKind) (first : String) (n : Nat) (name : String) : Prop :=
  entries.nameAt first n = some name ∧ entries.next? name = none

/-- A name whose entry has a value that is no pointer: that of a true token. -/
def HasPlain (entries : RawKind) (name : String) : Prop :=
  isName name ∧ name ≠ defaultName ∧
    ∃ description, entries.get? name = some (some description) ∧ isMarked description = false

/-- The names of the aliases of a kind: all entries but the default whose value is a pointer. -/
def aliasNames (entries : RawKind) : List String :=
  (entries.toList.filter fun e => e.1 != defaultName && e.2.any isMarked).map (·.1)

variable {entries : RawKind} {first second name pointer : String} {n lookups : Nat}

theorem next?_eq_some_iff :
    entries.next? name = some second ↔ isName name ∧ name ≠ defaultName ∧
      ∃ value, entries.get? name = some (some value) ∧ isMarked value ∧
        stripMark value = second := by
  simp [next?, and_assoc, Option.join_eq_some_iff]

theorem HasPlain.next?_eq_none (h : entries.HasPlain name) : entries.next? name = none := by
  obtain ⟨-, -, description, hget, hv⟩ := h
  refine Option.eq_none_iff_forall_ne_some.2 ?_
  intro second hnext
  obtain ⟨-, -, value, hget', hv', -⟩ := next?_eq_some_iff.1 hnext
  rw [hget] at hget'
  cases hget'
  rw [hv] at hv'
  cases hv'

/-- A name that a walk goes on from is an alias. -/
theorem mem_aliasNames_of_next? (h : entries.next? name = some second) :
    name ∈ entries.aliasNames := by
  obtain ⟨-, hd, value, hget, hv, -⟩ := next?_eq_some_iff.1 h
  refine List.mem_map.2 ⟨(name, some value), ?_, rfl⟩
  refine List.mem_filter.2 ⟨SortedMap.mem_toList_iff.2 hget, ?_⟩
  simp [hd, hv]

/-- The first step of a walk taken apart from the others. -/
theorem nameAt_succ (entries : RawKind) (first : String) (n : Nat) :
    entries.nameAt first (n + 1) =
      (entries.next? first).bind fun second => entries.nameAt second n := by
  induction n with
  | zero =>
    rw [nameAt, nameAt, Option.bind_some]
    exact (Option.bind_fun_some (entries.next? first)).symm
  | succ n ih =>
    rw [nameAt, ih, Option.bind_assoc]
    rfl

theorem nameAt_succ_of_next? (h : entries.next? first = some second) (n : Nat) :
    entries.nameAt first (n + 1) = entries.nameAt second n := by
  rw [nameAt_succ, h, Option.bind_some]

theorem nameAt_add (entries : RawKind) (first : String) (m n : Nat) :
    entries.nameAt first (m + n) =
      (entries.nameAt first m).bind fun name => entries.nameAt name n := by
  induction n with
  | zero => exact (Option.bind_fun_some (entries.nameAt first m)).symm
  | succ n ih =>
    rw [← Nat.add_assoc, nameAt, ih, Option.bind_assoc]
    rfl

theorem isSome_nameAt_of_le {m : Nat} (h : (entries.nameAt first n).isSome) (hle : m ≤ n) :
    (entries.nameAt first m).isSome := by
  rw [← Nat.add_sub_of_le hle, nameAt_add] at h
  exact Option.isSome_of_isSome_bind h

/-! ## Cycles -/

/-- A walk that takes a number of steps has an alias before each of them. -/
theorem exists_alias_of_lt {m : Nat} (h : (entries.nameAt first n).isSome) (hlt : m < n) :
    ∃ name ∈ entries.aliasNames, entries.nameAt first m = some name := by
  have hsucc : (entries.nameAt first (m + 1)).isSome := isSome_nameAt_of_le h hlt
  obtain ⟨second, hsecond⟩ := Option.isSome_iff_exists.1 hsucc
  obtain ⟨name, hname, hnext⟩ := Option.bind_eq_some_iff.1 hsecond
  exact ⟨name, mem_aliasNames_of_next? hnext, hname⟩

/-- A walk that visits no name twice takes no more steps than there are aliases. -/
theorem le_length_aliasNames (h : (entries.nameAt first n).isSome)
    (hrepeats : ¬entries.Repeats first) : n ≤ entries.aliasNames.length := by
  -- The names before the steps are aliases, and no two of them are equal.
  have hsubset : (List.range n).map (entries.nameAt first) ⊆ entries.aliasNames.map some := by
    intro name? hmem
    obtain ⟨m, hm, rfl⟩ := List.mem_map.1 hmem
    obtain ⟨name, hname, hat⟩ := exists_alias_of_lt h (List.mem_range.1 hm)
    exact List.mem_map.2 ⟨name, hname, hat.symm⟩
  have hnodup : ((List.range n).map (entries.nameAt first)).Nodup := by
    refine List.Nodup.map_on ?_ List.nodup_range
    intro i hi j hj heq
    obtain ⟨name, -, hat⟩ := exists_alias_of_lt h (List.mem_range.1 hi)
    rcases Nat.lt_trichotomy i j with hlt | rfl | hlt
    · exact absurd ⟨i, j, name, hlt, hat, heq ▸ hat⟩ hrepeats
    · rfl
    · exact absurd ⟨j, i, name, hlt, heq ▸ hat, hat⟩ hrepeats
  have hlength := (hnodup.subperm hsubset).length_le
  rwa [List.length_map, List.length_range, List.length_map] at hlength

/-- A walk that visits a name twice goes round for ever. -/
theorem Repeats.isSome_nameAt (h : entries.Repeats first) (steps : Nat) :
    (entries.nameAt first steps).isSome := by
  obtain ⟨m, n, name, hlt, hm, hn⟩ := h
  have hround : entries.nameAt name (n - m) = some name := by
    rw [← Nat.add_sub_of_le (Nat.le_of_lt hlt), nameAt_add, hm, Option.bind_some] at hn
    exact hn
  have hrounds : ∀ rounds, entries.nameAt name (rounds * (n - m)) = some name := by
    intro rounds
    induction rounds with
    | zero => rw [Nat.zero_mul, nameAt]
    | succ rounds ih => rw [Nat.succ_mul, nameAt_add, ih, Option.bind_some, hround]
  -- A round has a step at least, so as many rounds as steps are enough.
  have hfar : (entries.nameAt first (m + steps * (n - m))).isSome := by
    rw [nameAt_add, hm, Option.bind_some, hrounds]
    rfl
  have hle : steps ≤ steps * (n - m) := Nat.le_mul_of_pos_right steps (Nat.sub_pos_of_lt hlt)
  exact isSome_nameAt_of_le hfar (by omega)

/-- A walk visits a name twice when it takes more steps than there are aliases. -/
theorem repeats_iff_isSome_nameAt (h : entries.aliasNames.length < n) :
    entries.Repeats first ↔ (entries.nameAt first n).isSome := by
  refine ⟨fun hrepeats => hrepeats.isSome_nameAt n, ?_⟩
  intro hsome
  by_contra hrepeats
  have hle := le_length_aliasNames hsome hrepeats
  omega

/-- Whether a name that a walk goes on from is counted among the names of the walk after it makes no
difference: the walk comes back to it on a cycle alone. -/
theorem repeats_iff_of_next? (h : entries.next? first = some second) :
    entries.Repeats first ↔ entries.Repeats second := by
  have hlt : entries.aliasNames.length < entries.aliasNames.length + 1 := Nat.lt_succ_self _
  rw [repeats_iff_isSome_nameAt (Nat.lt_succ_of_lt hlt), nameAt_succ_of_next? h,
    repeats_iff_isSome_nameAt hlt]

/-! ## Following a pointer -/

/-- The look-ups are used up when the walk takes as many steps. -/
theorem follow_eq_tooLongOrCyclic_iff :
    entries.follow lookups pointer = .error .tooLongOrCyclic ↔
      (entries.nameAt (stripMark pointer) lookups).isSome := by
  rw [follow_eq_error_iff]
  induction lookups generalizing pointer with
  | zero => exact ⟨fun _ => rfl, fun _ => .exhausted⟩
  | succ lookups ih =>
    refine ⟨?_, ?_⟩
    · intro h
      cases h with
      | step hn hd hget hv h =>
        rw [nameAt_succ_of_next? (next?_eq_some_iff.2 ⟨hn, hd, _, hget, hv, rfl⟩)]
        exact ih.1 h
    · intro h
      rw [nameAt_succ] at h
      obtain ⟨second, hnext⟩ := Option.isSome_iff_exists.1 (Option.isSome_of_isSome_bind h)
      rw [hnext, Option.bind_some] at h
      obtain ⟨hn, hd, value, hget, hv, rfl⟩ := next?_eq_some_iff.1 hnext
      exact .step hn hd hget hv (ih.2 h)

/-- A walk reaches a true token when it stops there, one look-up after its last step. -/
theorem leads_succ_iff :
    entries.Leads (n + 1) pointer name ↔
      entries.StopsAt (stripMark pointer) n name ∧ entries.HasPlain name := by
  induction n generalizing pointer with
  | zero =>
    refine ⟨?_, ?_⟩
    · intro h
      cases h with
      | stop hn hd hget hv =>
        have hplain : entries.HasPlain (stripMark pointer) := ⟨hn, hd, _, hget, hv⟩
        exact ⟨⟨rfl, hplain.next?_eq_none⟩, hplain⟩
      | step _ _ _ _ h => cases h
    · rintro ⟨⟨hat, -⟩, hn, hd, description, hget, hv⟩
      obtain rfl := Option.some.inj hat
      exact .stop hn hd hget hv
  | succ n ih =>
    refine ⟨?_, ?_⟩
    · intro h
      cases h with
      | step hn hd hget hv h =>
        rw [StopsAt, nameAt_succ_of_next? (next?_eq_some_iff.2 ⟨hn, hd, _, hget, hv, rfl⟩)]
        exact ih.1 h
    · rintro ⟨⟨hat, hstop⟩, hplain⟩
      rw [nameAt_succ] at hat
      obtain ⟨second, hnext, hat⟩ := Option.bind_eq_some_iff.1 hat
      obtain ⟨hn, hd, value, hget, hv, rfl⟩ := next?_eq_some_iff.1 hnext
      exact .step hn hd hget hv (ih.2 ⟨⟨hat, hstop⟩, hplain⟩)

/-- A name is found when the walk stops there before the look-ups are used up. -/
theorem follow_eq_ok_iff_stopsAt :
    entries.follow lookups pointer = .ok name ↔
      ∃ n < lookups, entries.StopsAt (stripMark pointer) n name ∧ entries.HasPlain name := by
  rw [follow_eq_ok_iff]
  refine ⟨?_, ?_⟩
  · rintro ⟨n, hle, h⟩
    cases n with
    | zero => cases h
    | succ n => exact ⟨n, hle, leads_succ_iff.1 h⟩
  · rintro ⟨n, hlt, h⟩
    exact ⟨n + 1, hlt, leads_succ_iff.2 h⟩

/-- A chain of names, each of which the next one points at, is followed to its end when it has
fewer steps than look-ups are allowed.  A longer one is given up like a cyclic walk. -/
theorem follow_chain {link : Nat → String} (hbase : entries.HasPlain (link 0))
    (hlink : ∀ i < n, entries.next? (link (i + 1)) = some (link i)) :
    entries.follow lookups (putMark (link n)) =
      if n < lookups then .ok (link 0) else .error .tooLongOrCyclic := by
  have hend : entries.nameAt (link n) n = some (link 0) := by
    induction n with
    | zero => rfl
    | succ n ih =>
      rw [nameAt_succ_of_next? (hlink n n.lt_succ_self)]
      exact ih fun i hi => hlink i (Nat.lt_succ_of_lt hi)
  split
  case isTrue hlt =>
    refine follow_eq_ok_iff_stopsAt.2 ⟨n, hlt, ?_, hbase⟩
    rw [stripMark_putMark]
    exact ⟨hend, hbase.next?_eq_none⟩
  case isFalse hle =>
    rw [follow_eq_tooLongOrCyclic_iff, stripMark_putMark]
    exact isSome_nameAt_of_le (Option.isSome_of_eq_some hend) (Nat.le_of_not_lt hle)

end RawKind

/-! ## Resolving an entry -/

theorem PointerFlaw.message_injective : Function.Injective PointerFlaw.message := by
  intro flaw flaw'
  cases flaw <;> cases flaw' <;> decide

namespace KindEntry

variable {locale : String} {k : KindEntry} {token pointer : String}

/-- The error of a pointer whose look-ups are used up. -/
theorem resolve_eq_tooLongOrCyclic_iff :
    (∃ flaw, k.resolve locale token pointer = .error (.badAlias locale k.name token pointer flaw) ∧
        flaw.message = "alias chain is too long or cyclic") ↔
      k.entries.follow maxLookups pointer = .error .tooLongOrCyclic := by
  refine ⟨?_, ?_⟩
  · rintro ⟨flaw, hresolve, hmessage⟩
    obtain rfl : flaw = .tooLongOrCyclic := PointerFlaw.message_injective hmessage
    obtain ⟨_, hstrays, heq⟩ := Lexicon.resolve_eq_error_iff.1 hresolve
    cases heq
    exact RawKind.follow_eq_error_iff.2 hstrays
  · intro h
    have hstrays := RawKind.follow_eq_error_iff.1 h
    exact ⟨.tooLongOrCyclic, Lexicon.resolve_eq_error_iff.2 ⟨_, hstrays, rfl⟩, rfl⟩

/-- The walk from an alias whose own name can be looked up.  A walk that is not cyclic does not come
back to the alias, so the kind may have as many aliases as there are look-ups. -/
theorem resolve_alias_eq_cyclic_iff (hget : k.entries.get? token = some (some pointer))
    (hv : isMarked pointer) (hn : isName token) (hd : token ≠ defaultName)
    (hle : k.entries.aliasNames.length ≤ 64) :
    (∃ flaw, k.resolve locale token pointer = .error (.badAlias locale k.name token pointer flaw) ∧
        flaw.message = "alias chain is too long or cyclic") ↔
      k.entries.Repeats (stripMark pointer) := by
  have hnext : k.entries.next? token = some (stripMark pointer) :=
    RawKind.next?_eq_some_iff.2 ⟨hn, hd, pointer, hget, hv, rfl⟩
  have hlt : k.entries.aliasNames.length < maxLookups + 1 := Nat.lt_succ_of_le hle
  rw [resolve_eq_tooLongOrCyclic_iff, RawKind.follow_eq_tooLongOrCyclic_iff,
    ← RawKind.repeats_iff_of_next? hnext, RawKind.repeats_iff_isSome_nameAt hlt,
    RawKind.nameAt_succ_of_next? hnext]

/-- What comes of the walk from the value of an entry, an alias or the default.  In a kind with
fewer aliases than look-ups it is given up exactly when it visits a name twice.  In any kind a name
is the result exactly when the walk stops there within the look-ups and the name is that of a true
token, so a walk that visits a name twice has no result. -/
theorem resolve_tells_cycles (locale : String) (k : KindEntry) (token pointer : String) :
    (k.entries.aliasNames.length < 64 →
      ((∃ flaw,
          k.resolve locale token pointer = .error (.badAlias locale k.name token pointer flaw) ∧
            flaw.message = "alias chain is too long or cyclic") ↔
        k.entries.Repeats (stripMark pointer))) ∧
      (∀ target, k.resolve locale token pointer = .ok target ↔
        ∃ n < 64, k.entries.StopsAt (stripMark pointer) n target ∧ k.entries.HasPlain target) ∧
      (k.entries.Repeats (stripMark pointer) →
        ∀ target, k.resolve locale token pointer ≠ .ok target) := by
  refine ⟨?_, ?_, ?_⟩
  · intro hlt
    rw [resolve_eq_tooLongOrCyclic_iff, RawKind.follow_eq_tooLongOrCyclic_iff]
    exact (RawKind.repeats_iff_isSome_nameAt hlt).symm
  · intro target
    rw [Lexicon.resolve_eq_ok_iff]
    exact RawKind.follow_eq_ok_iff_stopsAt
  · intro hrepeats target hok
    have hgiven := RawKind.follow_eq_tooLongOrCyclic_iff.2 (hrepeats.isSome_nameAt maxLookups)
    rw [Lexicon.resolve_eq_ok_iff, hgiven] at hok
    cases hok

/-- Two aliases of each other and an alias of a true token, to which the default leads. -/
theorem resolve_tells_cycles_gender :
    let k : KindEntry := ⟨"gender", false, .ofEntries
      [("a", "@b"), ("b", "@a"), ("f", "female"), ("fem", "@f"), ("default", "@fem")]⟩
    k.entries.aliasNames.length < 64 ∧
      (∃ flaw, k.resolve "en" "a" "@b" = .error (.badAlias "en" "gender" "a" "@b" flaw) ∧
        flaw.message = "alias chain is too long or cyclic") ∧
      k.resolve "en" "default" "@fem" = .ok "f" := by
  intro k
  have hlength : k.entries.aliasNames.length < 64 := by decide +kernel
  have hrepeats : k.entries.Repeats (stripMark "@b") :=
    ⟨0, 2, "b", by decide, by decide +kernel, by decide +kernel⟩
  refine ⟨hlength, ((resolve_tells_cycles "en" k "a" "@b").1 hlength).2 hrepeats, ?_⟩
  refine ((resolve_tells_cycles "en" k "default" "@fem").2.1 "f").2 ⟨1, by decide, ?_, ?_⟩
  · exact ⟨by decide +kernel, by decide +kernel⟩
  · exact ⟨by decide +kernel, by decide +kernel, "female", by decide +kernel, by decide +kernel⟩

end KindEntry

end Inflection
