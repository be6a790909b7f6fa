import Mathlib.Data.List.DropRight
import Mathlib.Data.List.Sort

/-!
# JSON values and their texts

JSON values, the text `JSON.stringify` gives them, and the canonical text with
sorted object keys that content digests are taken of.  Integers print in
decimal; how a fraction prints is a parameter.  Text lengths and cuts count
UTF-16 code units, as string lengths of the host language do.
-/

namespace Lib

inductive Json
  | null
  | bool (b : Bool)
  | num (q : Rat)
  | str (s : String)
  | arr (items : List Json)
  | obj (members : List (String × Json))

namespace Json

def hexDigit (n : Nat) : Char :=
  Char.ofNat (if n < 10 then 48 + n else 87 + n)

def escapeChar (c : Char) : List Char :=
  if c = '"' then ['\\', '"']
  else if c = '\\' then ['\\', '\\']
  else if c.toNat = 8 then ['\\', 'b']
  else if c.toNat = 9 then ['\\', 't']
  else if c.toNat = 10 then ['\\', 'n']
  else if c.toNat = 12 then ['\\', 'f']
  else if c.toNat = 13 then ['\\', 'r']
  else if c.toNat < 32 then
    ['\\', 'u', '0', '0', hexDigit (c.toNat / 16), hexDigit (c.toNat % 16)]
  else [c]

def quote (s : String) : String :=
  String.ofList (('"' :: s.toList.flatMap escapeChar) ++ ['"'])

section Render

variable (renderFraction : Rat → String)

def renderNumber (q : Rat) : String :=
  if q.den = 1 then toString q.num else renderFraction q

mutual

def stringify : Json → String
  | .null => "null"
  | .bool b => if b then "true" else "false"
  | .num q => renderNumber renderFraction q
  | .str s => quote s
  | .arr items => "[" ++ String.intercalate "," (stringifyItems items) ++ "]"
  | .obj members => "\x7b" ++ String.intercalate "," (stringifyMembers members) ++ "\x7d"

def stringifyItems : List Json → List String
  | [] => []
  | v :: vs => stringify v :: stringifyItems vs

def stringifyMembers : List (String × Json) → List String
  | [] => []
  | (k, v) :: ms => (quote k ++ ":" ++ stringify v) :: stringifyMembers ms

end

mutual

def canonicalJson : Json → String
  | .null => "null"
  | .bool b => if b then "true" else "false"
  | .num q => renderNumber renderFraction q
  | .str s => quote s
  | .arr items => "[" ++ String.intercalate "," (canonicalItems items) ++ "]"
  | .obj members =>
    let sorted := (canonicalMembers members).insertionSort fun a b => a.1 ≤ b.1
    "\x7b" ++ String.intercalate "," (sorted.map fun m => quote m.1 ++ ":" ++ m.2) ++ "\x7d"

def canonicalItems : List Json → List String
  | [] => []
  | v :: vs => canonicalJson v :: canonicalItems vs

def canonicalMembers : List (String × Json) → List (String × String)
  | [] => []
  | (k, v) :: ms => (k, canonicalJson v) :: canonicalMembers ms

end

end Render

/-! ### Reading a value -/

/-- `typeof value === "object"` of a value that is not `null`; arrays are objects too. -/
def isObject : Json → Bool
  | .arr _ | .obj _ => true
  | _ => false

def isNull : Json → Bool
  | .null => true
  | _ => false

def isTruthy : Json → Bool
  | .null => false
  | .bool b => b
  | .num q => q ≠ 0
  | .str s => s ≠ ""
  | .arr _ | .obj _ => true

def member : Json → String → Option Json
  | .obj members, key => members.lookup key
  | _, _ => none

def text? : Option Json → Option String
  | some (.str s) => some s
  | _ => none

def items? : Option Json → Option (List Json)
  | some (.arr items) => some items
  | _ => none

def number? : Option Json → Option Rat
  | some (.num q) => some q
  | _ => none

def setMember (members : List (String × Json)) (key : String) (value : Json) :
    List (String × Json) :=
  if members.any (·.1 = key) then
    members.map fun m => if m.1 = key then (key, value) else m
  else members ++ [(key, value)]

/-! ### Making a value -/

/-- A text or `null`. -/
def ofOption : Option String → Json
  | none => .null
  | some s => .str s

def ofTexts (texts : List String) : Json :=
  .arr (texts.map .str)

end Json

def nonEmpty (value : Option String) : Option String :=
  value.filter (· ≠ "")

/-! ## White space -/

/-- White space and line ends, as `trim` takes them away. -/
def isSpace (c : Char) : Bool :=
  c.toNat ∈ [9, 10, 11, 12, 13, 32, 0xa0, 0x1680, 0x2028, 0x2029, 0x202f, 0x205f, 0x3000, 0xfeff] ∨
    0x2000 ≤ c.toNat ∧ c.toNat ≤ 0x200a

def trim (s : String) : String :=
  String.ofList ((s.toList.dropWhile isSpace).rdropWhile isSpace)

/-! ## Lengths and cuts in UTF-16 code units -/

def utf16Units (c : Char) : Nat :=
  if c.toNat < 0x10000 then 1 else 2

def utf16Length (s : String) : Nat :=
  s.toList.foldl (fun n c => n + utf16Units c) 0

/-- The longest prefix of at most `n` code units; a pair that the cut splits is
stored as the replacement character. -/
def takeUtf16 : Nat → List Char → List Char
  | 0, _ => []
  | _, [] => []
  | n + 1, c :: cs =>
    if c.toNat < 0x10000 then c :: takeUtf16 n cs
    else
      match n with
      | 0 => [Char.ofNat 0xFFFD]
      | m + 1 => c :: takeUtf16 m cs

/-- The text cut to its first `n` code units. -/
def sliceText (s : String) (n : Nat) : String :=
  String.ofList (takeUtf16 n s.toList)

end Lib
