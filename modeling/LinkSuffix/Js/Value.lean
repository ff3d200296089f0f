import LinkSuffix.Contracts.DeliverySuffix
import Mathlib.Algebra.Order.Field.Rat

/-!
# Values as JavaScript sees them

The values a request body or a capture can hold, and the coercions the services apply to them:
`Number(…)`, `String(…)`, truth, `??`, and reading a field. A number is the decimal it was written
as; rounding to a double is left out.

* `JsNumber`, `JsValue`: the values.
* `JsValue.toNumber`, `JsValue.toText`, `JsValue.truthy`: the coercions.
* `JsValue.get`, `JsValue.record`: reading an object.
-/

namespace LinkSuffix

/-! ## Numbers -/

inductive JsNumber where
  | nan
  | infinity (negative : Bool)
  | finite (value : Rat)
  deriving DecidableEq

namespace JsNumber

/-- `Number.isInteger`: the integer, when it is one. -/
def integer : JsNumber → Option Int
  | .finite value => if value.den = 1 then some value.num else none
  | _ => none

/-- `Number.isFinite`. -/
def isFinite : JsNumber → Bool
  | .finite _ => true
  | _ => false

/-- The number is truthy. -/
def truthy : JsNumber → Bool
  | .nan => false
  | .infinity _ => true
  | .finite value => value ≠ 0

/-- The digits of a positive decimal and how many of them stand after the point. -/
def decimalDigits : Nat → Rat → Nat → List Char × Nat
  | 0, value, places => ((toString value.floor.toNat).toList, places)
  | fuel + 1, value, places =>
    if value.den = 1 then ((toString value.num.toNat).toList, places)
    else decimalDigits fuel (value * 10) (places + 1)

/-- The text of a positive decimal: written out between `1e-6` and `1e21`, with an exponent
elsewhere. -/
def positiveText (value : Rat) : List Char :=
  let (all, places) := decimalDigits 1100 value 0
  let digits := (all.reverse.dropWhile (· = '0')).reverse
  let point : Int := (all.length : Int) - places
  let size : Int := digits.length
  let zeros (count : Int) : List Char := List.replicate count.toNat '0'
  if size ≤ point ∧ point ≤ 21 then digits ++ zeros (point - size)
  else if 0 < point ∧ point ≤ 21 then
    digits.take point.toNat ++ '.' :: digits.drop point.toNat
  else if -6 < point ∧ point ≤ 0 then '0' :: '.' :: zeros (-point) ++ digits
  else
    let exponent := point - 1
    let tail := if digits.length = 1 then [] else '.' :: digits.drop 1
    digits.take 1 ++ tail ++ 'e' :: (if exponent < 0 then '-' else '+') ::
      (toString exponent.natAbs).toList

/-- `String(n)`. -/
def toText : JsNumber → String
  | .nan => "NaN"
  | .infinity negative => if negative then "-Infinity" else "Infinity"
  | .finite value =>
    if value = 0 then "0"
    else if value < 0 then String.ofList ('-' :: positiveText (-value))
    else String.ofList (positiveText value)

end JsNumber

/-! ### `Number(text)` -/

/-- The value of digits in a radix. -/
def parseRadix (radix : Nat) (digit : Char → Option Nat) (cs : List Char) : Option Nat :=
  if cs = [] then none
  else cs.foldl (fun value c => do
    let value ← value
    let d ← digit c
    if d < radix then some (radix * value + d) else none) (some 0)

/-- The exponent of a decimal, after its `e`. -/
def parseExponent (cs : List Char) : Option Int :=
  match cs with
  | '+' :: digits => (parseDigits digits).map fun n => (n : Int)
  | '-' :: digits => (parseDigits digits).map fun n => -(n : Int)
  | digits => (parseDigits digits).map fun n => (n : Int)

/-- An unsigned decimal: digits around a point, and an exponent. -/
def parseDecimal (cs : List Char) : Option Rat :=
  let mantissa := cs.takeWhile fun c => c ≠ 'e' && c ≠ 'E'
  let whole := mantissa.takeWhile (· ≠ '.')
  let fraction := (mantissa.dropWhile (· ≠ '.')).drop 1
  let exponent := match cs.dropWhile fun c => c ≠ 'e' && c ≠ 'E' with
    | [] => some 0
    | _ :: rest => parseExponent rest
  match parseDigits (whole ++ fraction), exponent with
  | some digits, some exponent => some ((digits : Rat) * (10 : Rat) ^ (exponent - fraction.length))
  | _, _ => none

/-- An unsigned decimal or `Infinity`. -/
def parseUnsigned (negative : Bool) (cs : List Char) : JsNumber :=
  if cs = "Infinity".toList then .infinity negative
  else
    match parseDecimal cs with
    | none => .nan
    | some value => .finite (if negative then -value else value)

/-- `Number(text)`. -/
def textToNumber (text : String) : JsNumber :=
  match (trim text).toList with
  | [] => .finite 0
  | '0' :: 'x' :: cs | '0' :: 'X' :: cs => ofRadix 16 cs
  | '0' :: 'o' :: cs | '0' :: 'O' :: cs => ofRadix 8 cs
  | '0' :: 'b' :: cs | '0' :: 'B' :: cs => ofRadix 2 cs
  | '+' :: cs => parseUnsigned false cs
  | '-' :: cs => parseUnsigned true cs
  | cs => parseUnsigned false cs
where
  ofRadix (radix : Nat) (cs : List Char) : JsNumber :=
    match parseRadix radix hexValue cs with
    | none => .nan
    | some value => .finite value

example : textToNumber " 12.50e1 " = .finite 125 := by decide +kernel

/-! ## Texts -/

/-- `value.toLowerCase()`, as far as ASCII text can come of it: the Kelvin sign is the only other
character with a lower case of one ASCII character. -/
def jsLower (value : String) : String :=
  String.ofList (value.toList.map fun c => if c = '\u212a' then 'k' else c.toLower)

/-- `value.split(separator)` for one character. -/
def splitText (separator : Char) (value : String) : List String :=
  (splitOnChar separator value.toList).map String.ofList

/-- `value.includes(part)`. -/
def includesText (value part : String) : Bool :=
  value.toList.tails.any fun rest => part.toList.isPrefixOf rest

/-! ## Values -/

/-- A value, with the fields of an object in their order. -/
inductive JsValue where
  | undefined
  | null
  | bool (value : Bool)
  | number (value : JsNumber)
  | string (value : String)
  | array (items : List JsValue)
  | object (fields : List (String × JsValue))

namespace JsValue

mutual

/-- `String(value)`. -/
def toText : JsValue → String
  | .undefined => "undefined"
  | .null => "null"
  | .bool value => if value then "true" else "false"
  | .number value => value.toText
  | .string value => value
  | .array items => String.intercalate "," (itemTexts items)
  | .object _ => "[object Object]"

/-- The items of an array as `join` writes them. -/
def itemTexts : List JsValue → List String
  | [] => []
  | .undefined :: items => "" :: itemTexts items
  | .null :: items => "" :: itemTexts items
  | item :: items => toText item :: itemTexts items

end

/-- `Number(value)`. -/
def toNumber : JsValue → JsNumber
  | .undefined => .nan
  | .null => .finite 0
  | .bool value => .finite (if value then 1 else 0)
  | .number value => value
  | .string value => textToNumber value
  | .array items => textToNumber (toText (.array items))
  | .object _ => .nan

/-- `Boolean(value)`. -/
def truthy : JsValue → Bool
  | .undefined => false
  | .null => false
  | .bool value => value
  | .number value => value.truthy
  | .string value => value ≠ ""
  | .array _ => true
  | .object _ => true

/-- `value == null`. -/
def isNullish : JsValue → Bool
  | .undefined => true
  | .null => true
  | _ => false

/-- `value ?? other`. -/
def orElse (value other : JsValue) : JsValue := if value.isNullish then other else value

/-- `value || other`. -/
def or (value other : JsValue) : JsValue := if value.truthy then value else other

/-- `value === text`. -/
def isText (value : JsValue) (text : String) : Bool :=
  match value with
  | .string t => t = text
  | _ => false

/-- `value === flag`. -/
def isBool (value : JsValue) (flag : Bool) : Bool :=
  match value with
  | .bool b => b = flag
  | _ => false

/-- The string, when the value is one. -/
def text? : JsValue → Option String
  | .string value => some value
  | _ => none

/-- The items of an array; of anything else, none. -/
def items : JsValue → List JsValue
  | .array items => items
  | _ => []

/-- The fields of an object that is no array; of anything else, none. -/
def record : JsValue → List (String × JsValue)
  | .object fields => fields
  | _ => []

/-- The value of a field among others. -/
def lookup (fields : List (String × JsValue)) (name : String) : JsValue :=
  ((fields.find? fun field => field.1 = name).map (·.2)).getD .undefined

/-- `value?.name`. -/
def get (value : JsValue) (name : String) : JsValue := lookup value.record name

/-- `{ ...base, ...value }`: fields that are there keep their place, the others follow. -/
def spread (base value : List (String × JsValue)) : List (String × JsValue) :=
  value.foldl (fun fields field =>
    if field.1 ∈ fields.map (·.1) then
      fields.map fun old => if old.1 = field.1 then field else old
    else fields ++ [field]) base

/-- `Object.values(value)`. -/
def values : JsValue → List JsValue
  | .object fields => fields.map (·.2)
  | .array items => items
  | .string value => value.toList.map fun c => .string (String.singleton c)
  | _ => []

/-- A list of texts as an array. -/
def ofTexts (texts : List String) : JsValue := .array (texts.map .string)

/-- A natural number. -/
def ofNat (n : Nat) : JsValue := .number (.finite n)

end JsValue

end LinkSuffix
