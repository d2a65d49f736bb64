/-!
# JSON output

`Json` is a JSON value whose objects keep the order of their fields.  One printer serves both
layouts: `Layout.compact` writes no blanks at all, `Layout.pretty` puts each item on a line of its
own, two spaces deeper than its brackets.  Empty lists and objects are closed at once.
-/

namespace Inflection

/-- A JSON value to be written. -/
inductive Json where
  | null
  | bool (b : Bool)
  | nat (n : Nat)
  | string (s : String)
  | array (items : List Json)
  | object (fields : List (String × Json))

namespace Json

/-! ## Strings -/

/-- The short escape of a character that has one. -/
def shortEscape? : Char → Option Char
  | '"' => some '"'
  | '\\' => some '\\'
  | '\x08' => some 'b'
  | '\x0c' => some 'f'
  | '\n' => some 'n'
  | '\r' => some 'r'
  | '\t' => some 't'
  | _ => none

/-- A character inside a string: quotes, backslashes and control characters are escaped. -/
def escape (c : Char) : List Char :=
  match shortEscape? c with
  | some e => ['\\', e]
  | none =>
    if c.toNat < 0x20 then
      ['\\', 'u', '0', '0', Nat.digitChar (c.toNat / 16), Nat.digitChar (c.toNat % 16)]
    else [c]

/-- A string in its quotes. -/
def quote (s : String) : List Char := '"' :: (s.toList.flatMap escape ++ ['"'])

/-! ## Values -/

/-- How the parts of lists and objects are set apart. -/
structure Layout where
  /-- What stands before an item or a closing bracket at some depth. -/
  lineBreak : Nat → List Char
  /-- What stands between a name and its value. -/
  colon : List Char

/-- No blanks. -/
def Layout.compact : Layout := ⟨fun _ => [], [':']⟩

/-- One item to a line. -/
def Layout.pretty : Layout := ⟨fun depth => '\n' :: List.replicate (2 * depth) ' ', [':', ' ']⟩

/-- Items between brackets. -/
def Layout.enclose (l : Layout) (depth : Nat) (opening closing : Char) :
    List (List Char) → List Char
  | [] => [opening, closing]
  | items =>
    opening :: (l.lineBreak (depth + 1) ++
      (',' :: l.lineBreak (depth + 1)).intercalate items ++ l.lineBreak depth ++ [closing])

mutual

/-- A value as it is written at some depth. -/
def write (l : Layout) (depth : Nat) : Json → List Char
  | null => "null".toList
  | bool true => "true".toList
  | bool false => "false".toList
  | nat n => (toString n).toList
  | string s => quote s
  | array items => l.enclose depth '[' ']' (writeItems l (depth + 1) items)
  | object fields => l.enclose depth '{' '}' (writeFields l (depth + 1) fields)

/-- Items as they are written. -/
def writeItems (l : Layout) (depth : Nat) : List Json → List (List Char)
  | [] => []
  | item :: items => write l depth item :: writeItems l depth items

/-- Fields as they are written. -/
def writeFields (l : Layout) (depth : Nat) : List (String × Json) → List (List Char)
  | [] => []
  | (name, value) :: fields =>
    (quote name ++ l.colon ++ write l depth value) :: writeFields l depth fields

end

section Write

variable (l : Layout) (depth : Nat)

@[simp] theorem write_nat (n : Nat) : write l depth (nat n) = (toString n).toList := rfl

@[simp] theorem write_string (s : String) : write l depth (string s) = quote s := rfl

@[simp] theorem write_array (items : List Json) :
    write l depth (array items) = l.enclose depth '[' ']' (writeItems l (depth + 1) items) := rfl

@[simp] theorem write_object (fields : List (String × Json)) :
    write l depth (object fields) = l.enclose depth '{' '}' (writeFields l (depth + 1) fields) :=
  rfl

theorem writeItems_cons (item : Json) (items : List Json) :
    writeItems l depth (item :: items) = write l depth item :: writeItems l depth items := rfl

theorem writeFields_cons (field : String × Json) (fields : List (String × Json)) :
    writeFields l depth (field :: fields) =
      (quote field.1 ++ l.colon ++ write l depth field.2) :: writeFields l depth fields := rfl

end Write

/-- The value without blanks. -/
def compact (j : Json) : String := String.ofList (j.write .compact 0)

/-- The value with one item to a line. -/
def pretty (j : Json) : String := String.ofList (j.write .pretty 0)

/-- A string, or null. -/
def ofString? : Option String → Json
  | some s => string s
  | none => null

end Json

end Inflection
