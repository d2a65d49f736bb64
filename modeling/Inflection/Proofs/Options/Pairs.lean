import Inflection.Proofs.Change
import Inflection.Proofs.Render.Mirror

/-!
# Options of a list of pairs

A list of option pairs may give a key more than once, and may mix requests with the keys of
switches.  The last value of a key counts, whether the pairs are read at once or added one by one;
a pair that gives a switch another value than `true` or `false` ends the first way and is passed
over in the second.

## Main statements

* `ofPairs_eq`: reading the pairs fails at the first refused pair, or adds them one by one.
* `get?_gathered`, `get_overrides_gathered`: what is gathered is the last value of each key.
* `ofPairs_takes_last`: all ways to build options agree, and overriding switches by pairs is
  rendering under the switches that the pairs give.
-/

namespace Inflection

/-! ## Switches -/

/-- The values that a function gives to the switches. -/
def PerSwitch.ofFn {α : Type} (f : Switch → α) : PerSwitch α :=
  ⟨f .raises, f .aliasedPatterns, f .unknownDefaults, f .excludedDefaults⟩

@[simp] theorem PerSwitch.get_ofFn {α : Type} (f : Switch → α) (x : Switch) :
    (ofFn f).get x = f x := by
  cases x <;> rfl

theorem isReservedKey_key (x : Switch) : isReservedKey x.key := by
  rw [isReservedKey, Switch.ofKey?_key]
  rfl

namespace Options

/-! ## Pairs -/

/-- The last value that some pairs give to a key. -/
def lastValue? (pairs : List (String × String)) (key : String) : Option String :=
  (pairs.filter (·.1 == key)).getLast?.map (·.2)

theorem lastValue?_concat (pairs : List (String × String)) (p : String × String) (key : String) :
    lastValue? (pairs ++ [p]) key = if p.1 = key then some p.2 else lastValue? pairs key := by
  rw [lastValue?, List.filter_append]
  by_cases h : p.1 = key
  · rw [if_pos h, List.filter_cons_of_pos (by simpa using h), List.filter_nil,
      List.getLast?_concat]
    rfl
  · rw [if_neg h, List.filter_cons_of_neg (by simpa using h), List.filter_nil, List.append_nil,
      lastValue?]

/-- A switch is given a value other than `true` and `false`. -/
def Refused (p : String × String) : Prop := isReservedKey p.1 ∧ p.2 ≠ "true" ∧ p.2 ≠ "false"

instance : DecidablePred Refused := fun p =>
  inferInstanceAs (Decidable (isReservedKey p.1 ∧ p.2 ≠ "true" ∧ p.2 ≠ "false"))

theorem readFlag_eq_none_iff {value : String} :
    readFlag value = none ↔ value ≠ "true" ∧ value ≠ "false" := by
  unfold readFlag
  split <;> simp_all

theorem eq_of_readFlag {value : String} {b : Bool} (h : readFlag value = some b) :
    b = (value == "true") := by
  unfold readFlag at h
  split at h
  · cases h
    rfl
  · cases h
    rfl
  · cases h

/-- The requests among some pairs. -/
def plain (pairs : List (String × String)) : List (String × String) :=
  pairs.filter fun p => !isReservedKey p.1

theorem plain_concat (pairs : List (String × String)) (p : String × String) :
    plain (pairs ++ [p]) = if isReservedKey p.1 then plain pairs else plain pairs ++ [p] := by
  rw [plain, List.filter_append]
  split
  case isTrue h =>
    rw [List.filter_cons_of_neg (by simp [h]), List.filter_nil, List.append_nil, plain]
  case isFalse h => rw [List.filter_cons_of_pos (by simp [h]), List.filter_nil, plain]

theorem lastValue?_plain {pairs : List (String × String)} {key : String} :
    lastValue? (plain pairs) key =
      if isReservedKey key then none else lastValue? pairs key := by
  rw [lastValue?, plain, List.filter_filter]
  split
  case isTrue h =>
    have hnil : (pairs.filter fun p => p.1 == key && !isReservedKey p.1) = [] := by
      refine List.filter_eq_nil_iff.2 ?_
      rintro p - hp
      obtain ⟨hkey, hplain⟩ := Bool.and_eq_true_iff.1 hp
      rw [beq_iff_eq.1 hkey, h] at hplain
      cases hplain
    rw [hnil]
    rfl
  case isFalse h =>
    rw [lastValue?]
    congr 2
    refine List.filter_congr ?_
    rintro p -
    by_cases hkey : p.1 = key
    · simp [hkey, h]
    · simp [hkey]

/-! ## Adding a pair -/

variable {o : Options} {key value : String}

theorem insert_of_refused (h : Refused (key, value)) :
    o.insert key value = .error (.invalidSwitch key value) := by
  obtain ⟨x, hx⟩ := Option.isSome_iff_exists.1 h.1
  rw [insert, hx, readFlag_eq_none_iff.2 h.2]

theorem insertIfValid_of_refused (h : Refused (key, value)) : o.insertIfValid key value = o := by
  rw [insertIfValid, insert_of_refused h]

theorem insert_of_not_refused (h : ¬Refused (key, value)) :
    o.insert key value = .ok (o.insertIfValid key value) := by
  unfold insertIfValid insert
  cases hx : Switch.ofKey? key with
  | none => rfl
  | some x =>
    cases hflag : readFlag value with
    | none =>
      exact absurd ⟨Option.isSome_iff_exists.2 ⟨x, hx⟩, readFlag_eq_none_iff.1 hflag⟩ h
    | some b => rfl

/-- The key of a switch asks for nothing. -/
theorem get?_insertIfValid (key' : String) : (o.insertIfValid key value).get? key' =
    if isReservedKey key then o.get? key' else if key = key' then some value else o.get? key' := by
  cases hkey : isReservedKey key with
  | false =>
    rw [insertIfValid_of_not_reserved hkey, get?, SortedMap.get?_insert]
    rfl
  | true =>
    obtain ⟨x, hx⟩ := Option.isSome_iff_exists.1 hkey
    rw [if_pos rfl, insertIfValid, insert, hx]
    cases readFlag value with
    | none => rfl
    | some b => rfl

theorem get_overrides_insertIfValid (h : ¬Refused (key, value)) (x : Switch) :
    (o.insertIfValid key value).overrides.get x =
      if key = x.key then some (value == "true") else o.overrides.get x := by
  cases hkey : isReservedKey key with
  | false =>
    have hne : key ≠ x.key := by
      rintro rfl
      rw [isReservedKey_key] at hkey
      cases hkey
    rw [if_neg hne, overrides_insertIfValid hkey]
  | true =>
    obtain ⟨y, hy⟩ := Option.isSome_iff_exists.1 hkey
    obtain rfl := Switch.key_of_ofKey? hy
    cases hflag : readFlag value with
    | none => exact absurd ⟨hkey, readFlag_eq_none_iff.1 hflag⟩ h
    | some b =>
      rw [insertIfValid, insert, hy, hflag]
      dsimp only
      rw [PerSwitch.get_set, ← eq_of_readFlag hflag]
      by_cases hxy : x = y
      · rw [if_pos hxy, if_pos (by rw [hxy])]
      · have hne : y.key ≠ x.key := by
          intro heq
          have := Switch.ofKey?_key y
          rw [heq, Switch.ofKey?_key] at this
          exact hxy (Option.some.inj this)
        rw [if_neg hxy, if_neg hne]

/-! ### In place -/

/-- The insertion of a pair into options that are changed in place: the switch is found first, then
its value is read, and only then it is written. -/
def insertInPlace (key value : String) : Change OptionsError Options Unit :=
  match Switch.ofKey? key with
  | none => modify fun o => { o with requests := o.requests.insert key value }
  | some x => do
    let flag ← match readFlag value with
      | some b => pure b
      | none => throw (.invalidSwitch key value)
    modify fun o => o.override x flag

theorem does_insertInPlace (key value : String) :
    (insertInPlace key value).Does (·.insert key value) := by
  intro o
  unfold insertInPlace insert
  cases Switch.ofKey? key with
  | none => rfl
  | some x =>
    cases readFlag value with
    | none => rfl
    | some b => rfl

/-! ## Adding pairs one by one -/

/-- The options after some pairs, of which the refused ones are passed over. -/
def gathered (pairs : List (String × String)) : Options :=
  pairs.foldl (fun o p => o.insertIfValid p.1 p.2) empty

theorem gathered_concat (pairs : List (String × String)) (p : String × String) :
    gathered (pairs ++ [p]) = (gathered pairs).insertIfValid p.1 p.2 := by
  rw [gathered, List.foldl_append]
  rfl

/-- What is asked for is the last value of a key among the requests. -/
theorem get?_gathered (pairs : List (String × String)) (key : String) :
    (gathered pairs).get? key = lastValue? (plain pairs) key := by
  induction pairs using List.reverseRecOn with
  | nil => rfl
  | append_singleton pairs p ih =>
    rw [gathered_concat, get?_insertIfValid, ih, plain_concat]
    split
    · rfl
    · rw [lastValue?_concat]

theorem get_overrides_gathered {pairs : List (String × String)} (h : ∀ p ∈ pairs, ¬Refused p)
    (x : Switch) :
    (gathered pairs).overrides.get x = (lastValue? pairs x.key).map (· == "true") := by
  induction pairs using List.reverseRecOn with
  | nil => exact PerSwitch.get_const none x
  | append_singleton pairs p ih =>
    have hp : ¬Refused (p.1, p.2) := h p (by simp)
    rw [gathered_concat, get_overrides_insertIfValid hp, lastValue?_concat,
      ih fun q hq => h q (by simp [hq])]
    split <;> rfl

/-- The requests that are gathered are those of the pairs whose keys are no switches. -/
theorem requests_gathered_plain (pairs : List (String × String)) :
    (gathered (plain pairs)).requests = (gathered pairs).requests := by
  have hplain : plain (plain pairs) = plain pairs := by
    simp only [plain, List.filter_filter, Bool.and_self]
  refine SortedMap.ext_get? ?_
  intro key
  change (gathered (plain pairs)).get? key = (gathered pairs).get? key
  rw [get?_gathered, get?_gathered, hplain]

theorem not_refused_of_mem_plain {pairs : List (String × String)} :
    ∀ p ∈ plain pairs, ¬Refused p := by
  rintro p hp ⟨hkey, -⟩
  rw [plain, List.mem_filter, hkey] at hp
  exact absurd hp.2 (by simp)

/-- The pairs that are refused make no difference to what is gathered. -/
theorem gathered_filter (pairs : List (String × String)) :
    gathered (pairs.filter (¬Refused ·)) = gathered pairs := by
  induction pairs using List.reverseRecOn with
  | nil => rfl
  | append_singleton pairs p ih =>
    rw [List.filter_append, gathered_concat]
    by_cases hp : Refused p
    · rw [List.filter_cons_of_neg (by simpa using hp), List.filter_nil, List.append_nil, ih,
        insertIfValid_of_refused hp]
    · rw [List.filter_cons_of_pos (by simpa using hp), List.filter_nil, gathered_concat, ih]

/-! ## Reading pairs at once -/

theorem foldlM_insert (pairs : List (String × String)) (o : Options) :
    pairs.foldlM (fun o p => o.insert p.1 p.2) o =
      match pairs.find? (Refused ·) with
      | some p => .error (.invalidSwitch p.1 p.2)
      | none => .ok (pairs.foldl (fun o p => o.insertIfValid p.1 p.2) o) := by
  induction pairs generalizing o with
  | nil => rfl
  | cons p pairs ih =>
    rw [List.foldlM_cons]
    by_cases hp : Refused p
    · rw [insert_of_refused hp, List.find?_cons_of_pos (by simpa using hp)]
      rfl
    · rw [insert_of_not_refused hp, List.find?_cons_of_neg (by simpa using hp)]
      exact ih _

/-- Pairs are refused for the first of them that is refused, or added one by one. -/
theorem ofPairs_eq (pairs : List (String × String)) :
    ofPairs pairs = match pairs.find? (Refused ·) with
      | some p => .error (.invalidSwitch p.1 p.2)
      | none => .ok (gathered pairs) :=
  foldlM_insert pairs empty

theorem ofPairs_eq_ok_iff {pairs : List (String × String)} :
    ofPairs pairs = .ok o ↔ (∀ p ∈ pairs, ¬Refused p) ∧ o = gathered pairs := by
  rw [ofPairs_eq]
  cases h : pairs.find? (Refused ·) with
  | none =>
    have hnone : ∀ p ∈ pairs, ¬Refused p := fun p hp => by
      simpa using List.find?_eq_none.1 h p hp
    rw [Except.ok.injEq, and_iff_right hnone, eq_comm]
  | some p =>
    have hp : Refused p := by simpa using List.find?_some h
    refine ⟨fun h => (nomatch h), ?_⟩
    rintro ⟨hall, -⟩
    exact absurd hp (hall p (List.mem_of_find?_eq_some h))

theorem ofPairs_eq_error_iff {pairs : List (String × String)} {e : OptionsError} :
    ofPairs pairs = .error e ↔ ∃ before key value after,
      pairs = before ++ (key, value) :: after ∧ (∀ p ∈ before, ¬Refused p) ∧
        Refused (key, value) ∧ e = .invalidSwitch key value := by
  rw [ofPairs_eq]
  refine ⟨?_, ?_⟩
  · intro h
    cases hfind : pairs.find? (Refused ·) with
    | none =>
      rw [hfind] at h
      cases h
    | some p =>
      rw [hfind] at h
      cases h
      obtain ⟨hp, before, after, rfl, hbefore⟩ := List.find?_eq_some_iff_append.1 hfind
      exact ⟨before, p.1, p.2, after, rfl, by simpa using hbefore, by simpa using hp, rfl⟩
  · rintro ⟨before, key, value, after, rfl, hbefore, hp, rfl⟩
    have hfind : (before ++ (key, value) :: after).find? (Refused ·) = some (key, value) :=
      List.find?_eq_some_iff_append.2
        ⟨by simpa using hp, before, after, rfl, by simpa using hbefore⟩
    rw [hfind]

end Options

/-! ## Rendering -/

/-- The switches after some pairs: each as the last value of its key says, or else as before. -/
def Switches.after (s : Switches) (pairs : List (String × String)) : Switches :=
  .ofFn fun x => ((Options.lastValue? pairs x.key).map (· == "true")).getD (s.get x)

namespace Options

/-- Pairs that override switches put in force what the switches are after these pairs. -/
theorem merged_gathered {pairs : List (String × String)} (h : ∀ p ∈ pairs, ¬Refused p)
    (s : Switches) : (s.after pairs).merged (gathered (plain pairs)).overrides =
      s.merged (gathered pairs).overrides := by
  refine PerSwitch.ext_get ?_
  intro x
  have hnone : (lastValue? (plain pairs) x.key) = none := by
    rw [lastValue?_plain, if_pos (isReservedKey_key x)]
  rw [Switches.merged, Switches.merged, PerSwitch.get_zipWith, PerSwitch.get_zipWith,
    get_overrides_gathered not_refused_of_mem_plain, get_overrides_gathered h, hnone,
    Switches.after, PerSwitch.get_ofFn]
  rfl

/-- Pairs make options unless one of them is refused, and then the first such is named.  The last
value of a key is its request, and the keys of switches are none.  Every text renders as with the
requests alone under the switches that the last values of their keys give.  Adding the pairs one by
one is reading those at once that are not refused, and a pair that is refused changes nothing, even
where options are changed in place. -/
theorem ofPairs_takes_last (pairs : List (String × String)) :
    (∀ e, ofPairs pairs = .error e ↔ ∃ before key value after,
      pairs = before ++ (key, value) :: after ∧ (∀ p ∈ before, ¬Refused p) ∧
        Refused (key, value) ∧ e = .invalidSwitch key value) ∧
    (∀ o, ofPairs pairs = .ok o →
      (∀ key, isReservedKey key = false → o.get? key = lastValue? pairs key) ∧
      (∀ p ∈ o.toList, isReservedKey p.1 = false) ∧
      ∃ requests, ofPairs (pairs.filter fun p => !isReservedKey p.1) = .ok requests ∧
        ∀ text d switches, interpolate text d switches o =
          interpolate text d (switches.after pairs) requests) ∧
    ofPairs (pairs.filter (¬Refused ·)) =
      .ok (pairs.foldl (fun o p => o.insertIfValid p.1 p.2) empty) ∧
    ∀ o key value, (insertInPlace key value).outcome o =
      if Refused (key, value) then (.error (.invalidSwitch key value), o)
      else (.ok (), o.insertIfValid key value) := by
  refine ⟨fun e => ofPairs_eq_error_iff, ?_, ?_, ?_⟩
  · intro o ho
    obtain ⟨hvalid, rfl⟩ := ofPairs_eq_ok_iff.1 ho
    refine ⟨?_, ?_, gathered (plain pairs), ?_, ?_⟩
    · intro key hkey
      rw [get?_gathered, lastValue?_plain, if_neg (by simp [hkey])]
    · rintro ⟨key, value⟩ hp
      have hget : (gathered pairs).get? key = some value := SortedMap.mem_toList_iff.1 hp
      rw [get?_gathered, lastValue?_plain] at hget
      by_contra hkey
      rw [if_pos (by simpa using hkey)] at hget
      cases hget
    · exact ofPairs_eq_ok_iff.2 ⟨not_refused_of_mem_plain, rfl⟩
    · intro text d switches
      exact (interpolate_of_requests (requests_gathered_plain pairs)
        (merged_gathered hvalid switches) text d).symm
  · refine ofPairs_eq_ok_iff.2 ⟨?_, (gathered_filter pairs).symm⟩
    intro p hp
    simpa using (List.mem_filter.1 hp).2
  · intro o key value
    split
    case isTrue h => exact (does_insertInPlace key value).outcome_of_error (insert_of_refused h)
    case isFalse h => exact (does_insertInPlace key value).outcome_of_ok (insert_of_not_refused h)

/-- A request and a switch that are given twice. -/
theorem ofPairs_takes_last_twice :
    let pairs := [("gender", "m"), ("inflector_raises", "true"), ("gender", "f"),
      ("inflector_raises", "false")]
    ofPairs pairs = .ok (gathered pairs) ∧ (gathered pairs).get? "gender" = some "f" ∧
      ∃ requests, ofPairs [("gender", "m"), ("gender", "f")] = .ok requests ∧
        ∀ text d, interpolate text d (Switches.standard.set .raises true) (gathered pairs) =
          interpolate text d Switches.standard requests := by
  intro pairs
  have hpairs : ofPairs pairs = .ok (gathered pairs) := by decide +kernel
  obtain ⟨hget, -, requests, hrequests, htext⟩ := (ofPairs_takes_last pairs).2.1 _ hpairs
  refine ⟨hpairs, hget "gender" (by decide), requests, hrequests, ?_⟩
  exact fun text d => htext text d (Switches.standard.set .raises true)

end Options

end Inflection
