import ClockifyAssistant.Lib.JsonValue

/-!
Strings and values as a JavaScript program prints and cuts them: lengths in UTF-16 units,
`trim`, `String(value)` and `JSON.stringify`. How a number is printed is a parameter.
-/
namespace ClockifyAssistant.Lib

instance charsLawfulBEq : LawfulBEq (List Char) := List.instLawfulBEq

/-- The longest prefix that the budget pays for. -/
def prefixFor (cost : Char → Nat) : Nat → List Char → List Char
  | _, [] => []
  | budget, c :: rest =>
      if cost c ≤ budget then c :: prefixFor cost (budget - cost c) rest else []

def utf16Units (c : Char) : Nat := if c.toNat < 0x10000 then 1 else 2

/-- `text.slice(0, units)`, without the half of a pair that is cut in two. -/
def sliceUnits (units : Nat) (text : String) : String :=
  .ofList (prefixFor utf16Units units text.toList)

/-- The longest prefix of at most `bytes` bytes of UTF-8. -/
def sliceBytes (bytes : Nat) (text : String) : String :=
  .ofList (prefixFor Char.utf8Size bytes text.toList)

/-- White space and line terminators. -/
def isTrimmed (c : Char) : Bool :=
  let n := c.toNat
  (0x9 ≤ n && n ≤ 0xd) || n == 0x20 || n == 0xa0 || n == 0x1680 ||
    (0x2000 ≤ n && n ≤ 0x200a) || n == 0x2028 || n == 0x2029 || n == 0x202f || n == 0x205f ||
    n == 0x3000 || n == 0xfeff

def trimText (text : List Char) : List Char :=
  ((text.dropWhile isTrimmed).reverse.dropWhile isTrimmed).reverse

namespace JsonValue

section Display

variable (numberText : Rat → String)

mutual

/-- `String(value)` -/
def displayText : JsonValue → String
  | .null => "null"
  | .bool value => toString value
  | .num value => numberText value
  | .str value => value
  | .arr items => ",".intercalate (displayItems items)
  | .obj _ => "[object Object]"

/-- An array leaves out its nulls when it is joined. -/
def displayItems : List JsonValue → List String
  | [] => []
  | .null :: rest => "" :: displayItems rest
  | item :: rest => displayText item :: displayItems rest

end

def quotedChar (c : Char) : String :=
  match c.toNat with
  | 0x08 => "\\b"
  | 0x09 => "\\t"
  | 0x0a => "\\n"
  | 0x0c => "\\f"
  | 0x0d => "\\r"
  | 0x22 => "\\\""
  | 0x5c => "\\\\"
  | n =>
      if n < 0x20 then "\\u00" ++ String.ofList [Nat.digitChar (n / 16), Nat.digitChar (n % 16)]
      else String.singleton c

def quoted (text : String) : String := "\"" ++ String.join (text.toList.map quotedChar) ++ "\""

mutual

/-- `JSON.stringify(value)` -/
def stringify : JsonValue → String
  | .null => "null"
  | .bool value => toString value
  | .num value => numberText value
  | .str value => quoted value
  | .arr items => "[" ++ ",".intercalate (stringifyItems items) ++ "]"
  | .obj fields => "\x7b" ++ ",".intercalate (stringifyFields fields) ++ "\x7d"

def stringifyItems : List JsonValue → List String
  | [] => []
  | item :: rest => stringify item :: stringifyItems rest

def stringifyFields : List (String × JsonValue) → List String
  | [] => []
  | (name, value) :: rest => (quoted name ++ ":" ++ stringify value) :: stringifyFields rest

end

/-- The bytes of the serialized value. -/
def jsonBytes (value : JsonValue) : Nat := (stringify numberText value).utf8ByteSize

end Display

end JsonValue

end ClockifyAssistant.Lib
