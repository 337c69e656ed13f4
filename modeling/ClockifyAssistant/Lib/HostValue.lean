import ClockifyAssistant.Lib.CodeUnits

/-!
Plain JavaScript data: JSON, and besides what JSON does not hold. A function counts as
`undefined`, and NaN and the infinities are numbers that are not finite.
-/
namespace ClockifyAssistant.Lib

inductive HostValue
  | undefined
  | null
  | bool (value : Bool)
  | num (value : NumberText)
  | nonFinite
  | str (value : CodeUnits)
  | arr (items : List HostValue)
  | obj (fields : List (CodeUnits × HostValue))

namespace HostValue

mutual

/-- `JSON.parse(JSON.stringify(value))` -/
def copied : HostValue → Option UnitJson
  | .undefined => none
  | .null => some .null
  | .bool value => some (.bool value)
  | .num value => some (.num value)
  | .nonFinite => some .null
  | .str value => some (.str value)
  | .arr items => some (.arr (copiedItems items))
  | .obj fields => some (.obj (copiedFields fields))

/-- An entry that is undefined becomes a null. -/
def copiedItems : List HostValue → List UnitJson
  | [] => []
  | item :: rest => (copied item).getD .null :: copiedItems rest

def copiedFields : List (CodeUnits × HostValue) → List (CodeUnits × UnitJson)
  | [] => []
  | (name, value) :: rest =>
      ((copied value).toList.map fun child => (name, child)) ++ copiedFields rest

end

mutual

def ofJson : UnitJson → HostValue
  | .null => .null
  | .bool value => .bool value
  | .num value => .num value
  | .str value => .str value
  | .arr items => .arr (ofJsonItems items)
  | .obj fields => .obj (ofJsonFields fields)

def ofJsonItems : List UnitJson → List HostValue
  | [] => []
  | item :: rest => ofJson item :: ofJsonItems rest

def ofJsonFields : List (CodeUnits × UnitJson) → List (CodeUnits × HostValue)
  | [] => []
  | (name, value) :: rest => (name, ofJson value) :: ofJsonFields rest

end

end HostValue

end ClockifyAssistant.Lib
