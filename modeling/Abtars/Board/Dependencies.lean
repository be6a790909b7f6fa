import Abtars.Database
import Mathlib.Data.Rat.Floor

/-!
# Dependencies of a card

`blocked_by` is a text: `children`, or a comma-separated list of card ids that the
board reads with `Number`.  `isUnblocked` looks every listed card up each time it is
asked.
-/

namespace Abtars

open Lib

/-! ## `Number` of a text -/

/-- The value of a text that `Number` reads: a finite double or an infinity. -/
inductive JsNumber
  | finite (value : Rat)
  | infinite (negative : Bool)
  deriving DecidableEq

def isJsSpace (c : Char) : Bool :=
  c.toNat ∈ [0x09, 0x0A, 0x0B, 0x0C, 0x0D, 0x20, 0xA0, 0x1680, 0x2028, 0x2029, 0x202F, 0x205F,
    0x3000, 0xFEFF] ∨ (0x2000 ≤ c.toNat ∧ c.toNat ≤ 0x200A)

def digitValue (base : Nat) (c : Char) : Option Nat :=
  let value :=
    if '0' ≤ c ∧ c ≤ '9' then some (c.toNat - '0'.toNat)
    else if 'a' ≤ c ∧ c ≤ 'z' then some (c.toNat - 'a'.toNat + 10)
    else if 'A' ≤ c ∧ c ≤ 'Z' then some (c.toNat - 'A'.toNat + 10)
    else none
  value.filter (· < base)

def digitsValue (base : Nat) (digits : List Char) : Option Nat :=
  digits.foldl (fun value c => value.bind fun n => (digitValue base c).map (n * base + ·)) (some 0)

def exponentValue : List Char → Option Int
  | '-' :: digits =>
    if digits = [] then none else (digitsValue 10 digits).map fun n => -(n : Int)
  | '+' :: digits => if digits = [] then none else (digitsValue 10 digits).map Int.ofNat
  | digits => if digits = [] then none else (digitsValue 10 digits).map Int.ofNat

variable (text : List Char)

/-- An unsigned decimal literal: digits with at most one point, and an exponent. -/
def decimalValue : Option Rat :=
  let (mantissa, exponent) := text.span fun c => c ≠ 'e' ∧ c ≠ 'E'
  let (whole, point) := mantissa.span (· ≠ '.')
  let fraction := point.drop 1
  if whole = [] ∧ fraction = [] then none
  else do
    let power ← if exponent = [] then some 0 else exponentValue (exponent.drop 1)
    let value ← digitsValue 10 (whole ++ fraction)
    some ((value : Rat) * (10 : Rat) ^ (power - fraction.length))

/-- The binary exponent of a positive rational: `2 ^ e ≤ q < 2 ^ (e + 1)`. -/
def binaryExponent (q : Rat) : Int :=
  let e : Int := (Nat.log2 q.num.natAbs : Int) - Nat.log2 q.den
  if (2 : Rat) ^ e ≤ q then e else e - 1

def roundHalfEven (q : Rat) : Int :=
  let below := q.floor
  let rest := q - below
  if rest < 1 / 2 then below
  else if 1 / 2 < rest then below + 1
  else if below % 2 = 0 then below else below + 1

def toDouble (q : Rat) : JsNumber :=
  if q ≤ 0 then .finite 0
  else
    let unit : Rat := (2 : Rat) ^ max (binaryExponent q - 52) (-1074)
    let value := (roundHalfEven (q / unit) : Rat) * unit
    if (2 : Rat) ^ (1024 : Nat) ≤ value then .infinite false else .finite value

def JsNumber.negate : JsNumber → JsNumber
  | .finite value => .finite (-value)
  | .infinite negative => .infinite !negative

def unsignedNumber : Option JsNumber :=
  if text = "Infinity".toList then some (.infinite false) else (decimalValue text).map toDouble

def radixNumber (base : Nat) (digits : List Char) : Option JsNumber :=
  if digits = [] then none
  else (digitsValue base digits).map fun value => toDouble (value : Rat)

/-- `Number(text)`; `none` is `NaN`. -/
def jsNumber : Option JsNumber :=
  let trimmed := ((text.dropWhile isJsSpace).reverse.dropWhile isJsSpace).reverse
  match trimmed with
  | [] => some (.finite 0)
  | '0' :: 'x' :: digits => radixNumber 16 digits
  | '0' :: 'X' :: digits => radixNumber 16 digits
  | '0' :: 'o' :: digits => radixNumber 8 digits
  | '0' :: 'O' :: digits => radixNumber 8 digits
  | '0' :: 'b' :: digits => radixNumber 2 digits
  | '0' :: 'B' :: digits => radixNumber 2 digits
  | '-' :: unsigned => (unsignedNumber unsigned).map JsNumber.negate
  | '+' :: unsigned => unsignedNumber unsigned
  | unsigned => unsignedNumber unsigned

/-! ## `isUnblocked` -/

def dependencyIds (blockedBy : String) : List JsNumber :=
  (blockedBy.toList.splitOn ',').filterMap jsNumber

def JsNumber.cardId : JsNumber → Option Nat
  | .finite value => if value.den = 1 ∧ 0 ≤ value.num then some value.num.natAbs else none
  | .infinite _ => none

variable (board : Table KanbanCard)

/-- `kanbanGetCard` of a number. -/
def cardOfNumber (n : JsNumber) : Option KanbanCard :=
  n.cardId.bind board.get

def CardStatus.isSettled (status : CardStatus) : Bool := status = .done ∨ status = .delivered

def kanbanGetChildren (parentId : Nat) : List KanbanCard :=
  board.select fun card => card.parentId = some parentId

inductive Blocking
  | nothing
  | children
  | cards (ids : List JsNumber)

/-- The reading of `blocked_by`. -/
def KanbanCard.blocking (card : KanbanCard) : Blocking :=
  match card.blockedBy with
  | none => .nothing
  | some text =>
    if text = "" then .nothing
    else if text = "children" then .children
    else .cards (dependencyIds text)

def isUnblocked (card : KanbanCard) : Bool :=
  match card.blocking with
  | .nothing => true
  | .children =>
    let kids := kanbanGetChildren board card.id
    kids.length > 0 ∧ kids.all (·.status.isSettled)
  | .cards ids => ids.all fun n => (cardOfNumber board n).any (·.status.isSettled)

end Abtars
