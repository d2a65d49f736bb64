import Inflection.Text.Basic

/-!
# Texts by their bytes

A text in UTF-8 is the encodings of its characters one after the other.  No encoding begins
another, and only the first byte of one can begin one, so the bytes of a text that is not empty are
found in another text only where the text itself stands.

## Main statements

* `prefix_of_encode_prefix`: bytes begin with those of a text only if the texts do so.
* `exists_of_encode_eq`: bytes hold those of a text only where the text stands.
-/

namespace Inflection.Text

/-- The bytes of a text in UTF-8. -/
def encode (cs : List Char) : List UInt8 := cs.flatMap String.utf8EncodeChar

theorem encode_cons (c : Char) (cs : List Char) :
    encode (c :: cs) = String.utf8EncodeChar c ++ encode cs := List.flatMap_cons

theorem encode_append (cs ds : List Char) : encode (cs ++ ds) = encode cs ++ encode ds :=
  List.flatMap_append

theorem length_encode (cs : List Char) : (encode cs).length = byteLength cs := by
  induction cs with
  | nil => rfl
  | cons c cs ih =>
    rw [encode_cons, List.length_append, String.length_utf8EncodeChar, ih, byteLength_cons]

/-- The bytes that a string is kept in. -/
theorem data_toUTF8 (s : String) : s.toUTF8.data.toList = encode s.toList := by
  rw [String.toUTF8_eq_toByteArray, ← String.utf8Encode_toList, List.utf8Encode,
    List.toList_data_toByteArray, encode]

/-! ## The first character -/

/-- Bytes begin with the encoding of one character only. -/
theorem eq_of_encodeChar_append {c d : Char} {u v : List UInt8}
    (h : String.utf8EncodeChar c ++ u = String.utf8EncodeChar d ++ v) : c = d := by
  have hdecode := congrArg (fun bytes => ByteArray.utf8DecodeChar? bytes.toByteArray 0) h
  simp only [List.toByteArray_append, ByteArray.utf8DecodeChar?_utf8EncodeChar_append] at hdecode
  exact Option.some.inj hdecode

theorem prefix_of_encode_prefix {needle cs : List Char} (h : encode needle <+: encode cs) :
    needle <+: cs := by
  induction needle generalizing cs with
  | nil => exact List.nil_prefix
  | cons d needle ih =>
    obtain ⟨v, hv⟩ := h
    rw [encode_cons, List.append_assoc] at hv
    cases cs with
    | nil =>
      have hnil := (List.append_eq_nil_iff.1 hv).1
      exact absurd hnil String.utf8EncodeChar_ne_nil
    | cons c cs =>
      rw [encode_cons] at hv
      obtain rfl := eq_of_encodeChar_append hv
      exact List.cons_prefix_cons.2 ⟨rfl, ih ⟨v, List.append_cancel_left hv⟩⟩

/-- The encoding of a character begins with a byte that can begin one. -/
theorem exists_encodeChar_eq (c : Char) :
    ∃ b bytes, String.utf8EncodeChar c = b :: bytes ∧ b.IsUTF8FirstByte := by
  cases h : String.utf8EncodeChar c with
  | nil => exact absurd h String.utf8EncodeChar_ne_nil
  | cons b bytes =>
    have hlength : 0 < (String.utf8EncodeChar c).length := by rw [h]; exact Nat.zero_lt_succ _
    have hfirst := (@UInt8.isUTF8FirstByte_getElem_utf8EncodeChar c 0 hlength).2 rfl
    simp only [h, List.getElem_cons_zero] at hfirst
    exact ⟨b, bytes, rfl, hfirst⟩

/-- Only the first byte of an encoding can begin one. -/
theorem eq_nil_of_encodeChar_eq {c : Char} {u v : List UInt8} {b : UInt8}
    (h : String.utf8EncodeChar c = u ++ b :: v) (hb : b.IsUTF8FirstByte) : u = [] := by
  have hlength : u.length < (String.utf8EncodeChar c).length := by
    rw [h, List.length_append, List.length_cons]
    omega
  have hget : (String.utf8EncodeChar c)[u.length] = b := by
    simp only [h, List.getElem_append_right (Nat.le_refl _), Nat.sub_self, List.getElem_cons_zero]
  rw [← hget, UInt8.isUTF8FirstByte_getElem_utf8EncodeChar] at hb
  exact List.eq_nil_of_length_eq_zero hb

/-! ## Places in a text -/

/-- A byte that can begin an encoding stands where a character of the text begins. -/
theorem exists_boundary {cs : List Char} {u v : List UInt8} {b : UInt8}
    (h : encode cs = u ++ b :: v) (hb : b.IsUTF8FirstByte) :
    ∃ before after, cs = before ++ after ∧ encode before = u ∧ encode after = b :: v := by
  induction cs generalizing u with
  | nil => exact absurd h.symm (by simp [encode])
  | cons c cs ih =>
    have hcs := h
    rw [encode_cons] at hcs
    rcases List.append_eq_append_iff.1 hcs with ⟨w, rfl, hrest⟩ | ⟨w, hc, hrest⟩
    · obtain ⟨before, after, rfl, rfl, hafter⟩ := ih hrest
      exact ⟨c :: before, after, rfl, encode_cons c before, hafter⟩
    · cases w with
      | nil =>
        rw [List.append_nil] at hc
        refine ⟨[c], cs, rfl, ?_, hrest.symm⟩
        rw [encode, List.flatMap_singleton, hc]
      | cons b' w =>
        obtain rfl := (List.cons.inj hrest).1
        obtain rfl := eq_nil_of_encodeChar_eq hc hb
        exact ⟨[], c :: cs, rfl, rfl, h⟩

/-- The bytes of a text that is not empty stand in another one only where the text does. -/
theorem exists_of_encode_eq {cs needle : List Char} {u v : List UInt8} (hne : needle ≠ [])
    (h : encode cs = u ++ encode needle ++ v) :
    ∃ before after, cs = before ++ needle ++ after ∧ byteLength before = u.length := by
  obtain ⟨d, needle, rfl⟩ := List.exists_cons_of_ne_nil hne
  obtain ⟨b, bytes, hd, hb⟩ := exists_encodeChar_eq d
  have hsplit : encode cs = u ++ b :: (bytes ++ encode needle ++ v) := by
    rw [h, encode_cons, hd]
    simp
  obtain ⟨before, after, rfl, rfl, hafter⟩ := exists_boundary hsplit hb
  have hprefix : encode (d :: needle) <+: encode after := by
    refine ⟨v, ?_⟩
    rw [hafter, encode_cons, hd]
    simp
  obtain ⟨rest, rfl⟩ := prefix_of_encode_prefix hprefix
  exact ⟨before, rest, (List.append_assoc ..).symm, (length_encode before).symm⟩

end Inflection.Text
