/-
# JSON values

A number is a whole number times a power of ten. A value is written without
spaces, the fields of an object in their order.

Key definitions: `Json.Value`, `Json.Value.write`.
-/
import EfsControl.Json.Text
import EfsControl.Text.Decimal

namespace EfsControl
namespace Json

/-- A JSON value. -/
inductive Value
  | null
  | boolean (b : Bool)
  /-- The number `mantissa` times ten to the power `exponent`. -/
  | number (mantissa exponent : Int)
  | text (s : List Char)
  | array (items : List Value)
  | object (fields : List (List Char × Value))

namespace Value

/-- A whole number. -/
def integer (n : Int) : Value := .number n 0

/-- A number as JSON writes it. -/
def writeNumber (mantissa exponent : Int) : List Char :=
  if exponent = 0 then Text.intDigits mantissa
  else Text.intDigits mantissa ++ 'e' :: Text.intDigits exponent

mutual

/-- A value as JSON. -/
def write : Value → List Char
  | .null => "null".toList
  | .boolean true => "true".toList
  | .boolean false => "false".toList
  | .number mantissa exponent => writeNumber mantissa exponent
  | .text s => writeText s
  | .array items => '[' :: writeItems items ++ [']']
  | .object fields => '\x7b' :: writeFields fields ++ ['\x7d']

/-- The members of an array, with commas between them. -/
def writeItems : List Value → List Char
  | [] => []
  | [v] => write v
  | v :: w :: vs => write v ++ ',' :: writeItems (w :: vs)

/-- The fields of an object, with commas between them. -/
def writeFields : List (List Char × Value) → List Char
  | [] => []
  | [(k, v)] => writeText k ++ ':' :: write v
  | (k, v) :: f :: fs => writeText k ++ ':' :: write v ++ ',' :: writeFields (f :: fs)

end

end Value
end Json
end EfsControl
