import Inflection.Config.Load
import Mathlib.Data.List.Basic
import Mathlib.Data.List.TakeWhile

/-!
# The bytes that a failure marks

A failure of reading is reported by a line and a column, and `offsetOf` turns these into an offset
again.  It counts each line before the place without its end and with one byte for that, although a
line may end in a carriage return and a newline.  So the offset falls short of the place by the
number of the lines before it that end so; it is exact where there are none.

Texts are taken apart line by line: `linesInduction` peels off the first line of a text.

## Main statements

* `Json.Place.within_find`: the reader reports the place that has a number of bytes before it.
* `Config.Diagnostic.linesLength_add_carriageReturns`: what is counted for some lines.
* `Config.Diagnostic.offsetOf_add_carriageReturns`: how far the offset of a place is from it.
-/

namespace Inflection

/-! ## Lines -/

namespace Text

/-- A text up to its newline of a given number, with this newline. -/
def throughLines : Nat → List Char → List Char
  | 0, _ => []
  | _ + 1, [] => []
  | n + 1, c :: cs => c :: throughLines (if c = '\n' then n else n + 1) cs

/-- A text after its newline of a given number. -/
def afterLines : Nat → List Char → List Char
  | 0, cs => cs
  | _ + 1, [] => []
  | n + 1, c :: cs => afterLines (if c = '\n' then n else n + 1) cs

/-- The first line of a text, without its newline. -/
def firstLine (cs : List Char) : List Char := cs.takeWhile (· ≠ '\n')

/-- The number of newlines of a text that stand right after a carriage return. -/
def carriageReturns : List Char → Nat
  | [] => 0
  | c :: cs => (if c = '\r' ∧ cs.head? = some '\n' then 1 else 0) + carriageReturns cs

@[simp] theorem throughLines_zero (cs : List Char) : throughLines 0 cs = [] := by
  cases cs <;> rfl

@[simp] theorem afterLines_zero (cs : List Char) : afterLines 0 cs = cs := by
  cases cs <;> rfl

theorem throughLines_append_afterLines (n : Nat) (cs : List Char) :
    throughLines n cs ++ afterLines n cs = cs := by
  induction cs generalizing n with
  | nil => cases n <;> rfl
  | cons c cs ih =>
    cases n with
    | zero => rfl
    | succ n => exact congrArg (c :: ·) (ih _)

/-- What holds of a last line, and of a line before a text that it holds of, holds of all texts. -/
theorem linesInduction {motive : List Char → Prop} (last : ∀ line, '\n' ∉ line → motive line)
    (line : ∀ line rest, '\n' ∉ line → motive rest → motive (line ++ '\n' :: rest))
    (cs : List Char) : motive cs := by
  induction h : cs.length using Nat.strongRecOn generalizing cs with
  | ind n ih =>
    by_cases hmem : '\n' ∈ cs
    · obtain ⟨first, rest, rfl, hfirst⟩ := List.eq_append_cons_of_mem hmem
      refine line first rest hfirst (ih rest.length ?_ rest rfl)
      rw [← h, List.length_append, List.length_cons]
      omega
    · exact last cs hmem

section Line

variable {line : List Char}

theorem count_line (h : '\n' ∉ line) (rest : List Char) :
    (line ++ '\n' :: rest).count '\n' = rest.count '\n' + 1 := by
  rw [List.count_append, List.count_eq_zero.2 h, List.count_cons_self, Nat.zero_add]

theorem byteLength_line (line rest : List Char) :
    byteLength (line ++ '\n' :: rest) = byteLength line + 1 + byteLength rest := by
  have hsize : ('\n').utf8Size = 1 := rfl
  rw [byteLength_append, byteLength_cons, hsize, Nat.add_assoc]

theorem throughLines_line (h : '\n' ∉ line) (n : Nat) (rest : List Char) :
    throughLines (n + 1) (line ++ '\n' :: rest) = line ++ '\n' :: throughLines n rest := by
  induction line with
  | nil => rfl
  | cons c cs ih =>
    have hc : c ≠ '\n' := (List.ne_of_not_mem_cons h).symm
    have hcs : '\n' ∉ cs := List.not_mem_of_not_mem_cons h
    rw [List.cons_append, throughLines, if_neg hc, ih hcs, List.cons_append]

theorem afterLines_line (h : '\n' ∉ line) (n : Nat) (rest : List Char) :
    afterLines (n + 1) (line ++ '\n' :: rest) = afterLines n rest := by
  induction line with
  | nil => rfl
  | cons c cs ih =>
    have hc : c ≠ '\n' := (List.ne_of_not_mem_cons h).symm
    have hcs : '\n' ∉ cs := List.not_mem_of_not_mem_cons h
    rw [List.cons_append, afterLines, if_neg hc, ih hcs]

theorem firstLine_eq_self (h : '\n' ∉ line) : firstLine line = line :=
  List.takeWhile_eq_self_iff.2 fun _ hc => decide_eq_true (ne_of_mem_of_not_mem hc h)

theorem firstLine_line (h : '\n' ∉ line) (rest : List Char) :
    firstLine (line ++ '\n' :: rest) = line := by
  rw [firstLine, List.takeWhile_append_of_pos, List.takeWhile_cons_of_neg, List.append_nil]
  · simp
  · exact fun _ hc => decide_eq_true (ne_of_mem_of_not_mem hc h)

theorem carriageReturns_line (h : '\n' ∉ line) (rest : List Char) :
    carriageReturns (line ++ '\n' :: rest) =
      (if line.getLast? = some '\r' then 1 else 0) + carriageReturns rest := by
  induction line with
  | nil => rfl
  | cons c cs ih =>
    rw [List.cons_append, carriageReturns, ih (List.not_mem_of_not_mem_cons h), ← Nat.add_assoc]
    cases cs with
    | nil => simp
    | cons d ds =>
      have hd : d ≠ '\n' :=
        (List.ne_of_not_mem_cons (List.not_mem_of_not_mem_cons h)).symm
      have hhead : ¬(c = '\r' ∧ (d :: ds ++ '\n' :: rest).head? = some '\n') :=
        fun h => hd (Option.some.inj h.2)
      rw [if_neg hhead, List.getLast?_cons_cons, Nat.zero_add]

theorem byteLength_firstLine_le (cs : List Char) : byteLength (firstLine cs) ≤ byteLength cs := by
  have h := congrArg byteLength (List.takeWhile_append_dropWhile (p := (· ≠ '\n')) (l := cs))
  rw [byteLength_append] at h
  exact h ▸ Nat.le_add_right ..

end Line

end Text

/-! ## Places -/

namespace Json.Place

open Text

/-- A place in a text: its line is there, and has the bytes that are passed. -/
structure Within (p : Place) (text : List Char) : Prop where
  line_pos : 1 ≤ p.line
  line_le : p.line - 1 ≤ text.count '\n'
  column_le : p.column ≤ byteLength (firstLine (afterLines (p.line - 1) text))

/-- The byte that a place is at: the last one that is passed, or the first one of its line. -/
def offset (p : Place) (text : List Char) : Nat :=
  byteLength (throughLines (p.line - 1) text) + (max p.column 1 - 1)

theorem Within.offset_le {p : Place} {text : List Char} (h : p.Within text) :
    p.offset text ≤ byteLength text := by
  have htext := congrArg byteLength (throughLines_append_afterLines (p.line - 1) text)
  rw [byteLength_append] at htext
  have hfirst := byteLength_firstLine_le (afterLines (p.line - 1) text)
  have hcolumn := h.column_le
  rw [offset]
  omega

/-! ### Places that are reported -/

theorem advance_zero (cs : List Char) (p : Place) : advance cs 0 p = p := by
  cases cs with
  | nil => rfl
  | cons c cs => rw [advance, if_pos c.utf8Size_pos, Nat.add_zero]

/-- Within a line the column moves on. -/
theorem advance_of_le {line : List Char} (h : '\n' ∉ line) {bytes : Nat}
    (hbytes : bytes ≤ byteLength line) (rest : List Char) (p : Place) :
    advance (line ++ rest) bytes p = { p with column := p.column + bytes } := by
  induction line generalizing bytes p with
  | nil =>
    obtain rfl : bytes = 0 := Nat.le_zero.1 hbytes
    exact advance_zero rest p
  | cons c cs ih =>
    have hc : c ≠ '\n' := (List.ne_of_not_mem_cons h).symm
    have hcs : '\n' ∉ cs := List.not_mem_of_not_mem_cons h
    rw [byteLength_cons] at hbytes
    rw [List.cons_append, advance]
    by_cases hlt : bytes < c.utf8Size
    · rw [if_pos hlt]
    · have hcolumn : p.column + c.utf8Size + (bytes - c.utf8Size) = p.column + bytes := by omega
      rw [if_neg hlt, if_neg hc, ih hcs (by omega)]
      exact congrArg (Place.mk p.line) hcolumn

/-- Past the end of a line the next one begins. -/
theorem advance_of_lt {line : List Char} (h : '\n' ∉ line) {bytes : Nat}
    (hbytes : byteLength line < bytes) (rest : List Char) (p : Place) :
    advance (line ++ '\n' :: rest) bytes p =
      advance rest (bytes - byteLength line - 1) ⟨p.line + 1, 0⟩ := by
  induction line generalizing bytes p with
  | nil =>
    have hsize : ('\n').utf8Size = 1 := rfl
    rw [byteLength_nil] at hbytes
    rw [List.nil_append, advance, if_neg (by omega), if_pos rfl, hsize, byteLength_nil,
      Nat.sub_zero]
  | cons c cs ih =>
    have hc : c ≠ '\n' := (List.ne_of_not_mem_cons h).symm
    have hcs : '\n' ∉ cs := List.not_mem_of_not_mem_cons h
    rw [byteLength_cons] at hbytes
    rw [List.cons_append, advance, if_neg (by omega), if_neg hc, ih hcs (by omega),
      byteLength_cons, Nat.sub_add_eq]

/-- From the start of a line, the place some bytes further on is in a line that is there. -/
theorem exists_advance_eq {text : List Char} {bytes : Nat} (h : bytes ≤ byteLength text)
    (line : Nat) :
    ∃ n ≤ text.count '\n', ∃ column ≤ byteLength (firstLine (afterLines n text)),
      advance text bytes ⟨line, 0⟩ = ⟨line + n, column⟩ ∧
        byteLength (throughLines n text) + column = bytes := by
  induction text using linesInduction generalizing bytes line with
  | last cs hcs =>
    have hplace := advance_of_le hcs h [] ⟨line, 0⟩
    rw [List.append_nil, Nat.zero_add] at hplace
    refine ⟨0, Nat.zero_le _, bytes, ?_, hplace, ?_⟩
    · rw [afterLines_zero, firstLine_eq_self hcs]
      exact h
    · rw [throughLines_zero, byteLength_nil, Nat.zero_add]
  | line cs rest hcs ih =>
    by_cases hbytes : bytes ≤ byteLength cs
    · have hplace := advance_of_le hcs hbytes ('\n' :: rest) ⟨line, 0⟩
      rw [Nat.zero_add] at hplace
      refine ⟨0, Nat.zero_le _, bytes, ?_, hplace, ?_⟩
      · rw [afterLines_zero, firstLine_line hcs]
        exact hbytes
      · rw [throughLines_zero, byteLength_nil, Nat.zero_add]
    · have hplace := advance_of_lt hcs (Nat.lt_of_not_le hbytes) rest ⟨line, 0⟩
      rw [byteLength_line] at h
      have hrest : bytes - byteLength cs - 1 ≤ byteLength rest := by omega
      obtain ⟨n, hn, column, hcolumn, hnext, hsum⟩ := ih hrest (line + 1)
      refine ⟨n + 1, ?_, column, ?_, ?_, ?_⟩
      · rw [count_line hcs]
        exact Nat.succ_le_succ hn
      · rw [afterLines_line hcs]
        exact hcolumn
      · rw [hplace, hnext, Nat.add_assoc, Nat.add_comm 1 n]
      · rw [throughLines_line hcs, byteLength_line]
        omega

/-- A place that is found in a text is in it, and after the bytes that are passed. -/
theorem within_find (text : List Char) (left : Nat) :
    (find text left).Within text ∧
      byteLength (throughLines ((find text left).line - 1) text) + (find text left).column =
        byteLength text - left := by
  obtain ⟨n, hn, column, hcolumn, hplace, hsum⟩ :=
    exists_advance_eq (Nat.sub_le (byteLength text) left) 1
  have hfind : find text left = ⟨n + 1, column⟩ := hplace.trans (by rw [Nat.add_comm])
  rw [hfind]
  exact ⟨⟨Nat.le_add_left 1 n, hn, hcolumn⟩, hsum⟩

end Json.Place

/-! ## Offsets -/

namespace Config.Diagnostic

open Text

/-- A line without its end and its carriage return make up the line. -/
theorem byteLength_trimLine (line : List Char) :
    byteLength (trimLine line) + (if line.getLast? = some '\r' then 1 else 0) =
      byteLength line := by
  unfold trimLine
  split
  case isTrue h =>
    have hsize : ('\r').utf8Size = 1 := rfl
    have hline : line.dropLast ++ ['\r'] = line := List.dropLast_append_getLast? _ h
    rw [← congrArg byteLength hline, byteLength_append, byteLength_cons, byteLength_nil, hsize]
  case isFalse => rw [Nat.add_zero]

theorem linesLength_zero (content : List Char) : linesLength 0 content = 0 := by
  rw [linesLength, List.take_zero, List.foldr_nil]

theorem linesLength_line {line : List Char} (h : '\n' ∉ line) (n : Nat) (rest : List Char) :
    linesLength (n + 1) (line ++ '\n' :: rest) =
      byteLength (trimLine line) + 1 + linesLength n rest := by
  rw [linesLength, List.splitOn_append_cons_self_of_not_mem h, List.take_succ_cons,
    List.foldr_cons, linesLength]

/-- What is counted for some lines falls short of them by their carriage returns. -/
theorem linesLength_add_carriageReturns {content : List Char} {n : Nat}
    (h : n ≤ content.count '\n') :
    linesLength n content + carriageReturns (throughLines n content) =
      byteLength (throughLines n content) := by
  induction content using linesInduction generalizing n with
  | last line hline =>
    obtain rfl : n = 0 := Nat.le_zero.1 (List.count_eq_zero.2 hline ▸ h)
    rw [throughLines_zero, linesLength_zero]
    rfl
  | line line rest hline ih =>
    cases n with
    | zero =>
      rw [throughLines_zero, linesLength_zero]
      rfl
    | succ n =>
      rw [count_line hline] at h
      have hrest := ih (Nat.le_of_succ_le_succ h)
      have htrim := byteLength_trimLine line
      rw [linesLength_line hline, throughLines_line hline, carriageReturns_line hline,
        byteLength_line]
      omega

/-- The diagnostic of a failure marks one byte, and the place of the failure is in the text, after
all the bytes that were read.  The offset that is found for a place in a text is before the place by
the number of lines before it that end in a carriage return and a newline. -/
theorem offsetOf_add_carriageReturns (content : List Char) :
    (∀ f : Json.Failure,
      (ofFailure content f).span? = some ⟨offsetOf content (f.place content), 1⟩ ∧
      (f.place content).Within content ∧
      byteLength (throughLines ((f.place content).line - 1) content) + (f.place content).column =
        byteLength content - f.left) ∧
    ∀ p : Json.Place, p.Within content →
      offsetOf content p + carriageReturns (throughLines (p.line - 1) content) =
        p.offset content := by
  refine ⟨fun f => ⟨rfl, Json.Place.within_find content f.left⟩, fun p hp => ?_⟩
  have hlines := linesLength_add_carriageReturns hp.line_le
  have hle := hp.offset_le
  rw [Json.Place.offset] at hle ⊢
  -- the offset is never cut off at the end of the text
  rw [offsetOf, Nat.min_eq_left (by omega)]
  omega

/-- A value of the wrong sort after two lines that end in a carriage return and a newline is marked
two bytes too early. -/
theorem offsetOf_add_carriageReturns_value :
    let lines := [r"{", r#"  "gender": {"#, r#"    "m": 1"#, r"  }", r"}"]
    let content := ("\r\n".intercalate lines).toList
    let f : Json.Failure := ⟨.invalidType (.integer 1) .string, 8⟩
    Json.readTree content = .error f ∧ f.place content = ⟨3, 10⟩ ∧
      (f.place content).Within content ∧ (f.place content).offset content = 27 ∧
      (ofFailure content f).span? = some ⟨25, 1⟩ := by
  intro lines content f
  have hread : Json.readTree content = .error f := by decide +kernel
  have hplace : f.place content = ⟨3, 10⟩ := by decide +kernel
  obtain ⟨hfailure, hoffset⟩ := offsetOf_add_carriageReturns content
  obtain ⟨hspan, hwithin, -⟩ := hfailure f
  have hadd := hoffset _ hwithin
  have hreturns : carriageReturns (throughLines ((f.place content).line - 1) content) = 2 := by
    decide +kernel
  have hbyte : (f.place content).offset content = 27 := by decide +kernel
  refine ⟨hread, hplace, hwithin, hbyte, ?_⟩
  rw [hreturns, hbyte] at hadd
  rw [hspan, Nat.add_right_cancel hadd]

end Config.Diagnostic

end Inflection
