import ClockifyAssistant.Lib.CodeUnits

/-!
The copy of a receipt that goes back to the model. It is cut until it fits a byte budget;
the stored receipt is not.
-/
namespace ClockifyAssistant

open Lib Lib.CodeUnits

def toolResultMaxBytes : Nat := 24000

/-- Longest string leaf kept verbatim when a receipt must be pruned. -/
def prunedStringChars : Nat := 2000

/-- Longest array kept when a receipt must be pruned. -/
def prunedArrayItems : Nat := 25

namespace ToolResults

def okName : CodeUnits := ofString "ok"
def codeName : CodeUnits := ofString "code"
def dataName : CodeUnits := ofString "data"
def noteName : CodeUnits := ofString "note"
def truncatedName : CodeUnits := ofString "truncatedForModel"

/-- A receipt as its JSON shows it: an object with the flag `ok` and, for an error, with a
code. The marker of a shortened copy is none of its fields. -/
structure ReceiptJson where
  fields : List (CodeUnits × UnitJson)
  ok : Bool
  okField : fields.lookup okName = some (.bool ok)
  codeField : ok = false → ∃ code, fields.lookup codeName = some (.str code)
  unmarked : fields.lookup truncatedName = none

def ReceiptJson.json (receipt : ReceiptJson) : UnitJson := .obj receipt.fields

def stringTruncated (chars : Nat) : CodeUnits :=
  ofString "…[truncated " ++ ofNat chars ++ ofString " chars]"

def itemsOmitted (items : Nat) : CodeUnits :=
  ofString "…truncated: " ++ ofNat items ++
    ofString " more item(s) omitted for the model; ask a narrower query for the rest"

def resultTooLarge (bytes : Nat) : CodeUnits :=
  ofString "result too large to show the model (" ++ ofNat bytes ++
    ofString " bytes); the admin saw the full result — ask a narrower query if you need the details"

mutual

def pruneValue : UnitJson → UnitJson
  | .str value =>
      if prunedStringChars < value.length then
        .str (value.take prunedStringChars ++ stringTruncated (value.length - prunedStringChars))
      else .str value
  | .arr items =>
      .arr (pruneHead prunedArrayItems items ++
        if prunedArrayItems < items.length then
          [.str (itemsOmitted (items.length - prunedArrayItems))]
        else [])
  | .obj fields => .obj (pruneFields fields)
  | value => value

/-- `items.slice(0, count).map(pruneValue)` -/
def pruneHead : Nat → List UnitJson → List UnitJson
  | count + 1, item :: rest => pruneValue item :: pruneHead count rest
  | _, _ => []

def pruneFields : List (CodeUnits × UnitJson) → List (CodeUnits × UnitJson)
  | [] => []
  | (name, value) :: rest => (name, pruneValue value) :: pruneFields rest

end

def ownFields : UnitJson → List (CodeUnits × UnitJson)
  | .obj fields => fields
  | _ => []

def withoutData (fields : List (CodeUnits × UnitJson)) : List (CodeUnits × UnitJson) :=
  fields.filter fun field => field.1 != dataName

def capToolResultForModel (receipt : ReceiptJson) : CodeUnits :=
  let full := receipt.json.stringify
  if byteLength full ≤ toolResultMaxBytes then full
  else
    let pruned :=
      (UnitJson.obj (ownFields (pruneValue receipt.json) ++ [(truncatedName, .bool true)])).stringify
    if byteLength pruned ≤ toolResultMaxBytes then pruned
    else
      (UnitJson.obj (withoutData receipt.fields ++
        [(truncatedName, .bool true),
          (dataName, .obj [(noteName, .str (resultTooLarge (byteLength full)))])])).stringify

structure ToolMessage where
  toolCallId : CodeUnits
  content : CodeUnits

def toolResultTurn (toolCallId : CodeUnits) (receipt : ReceiptJson) : ToolMessage where
  toolCallId := toolCallId
  content := capToolResultForModel receipt

end ToolResults

end ClockifyAssistant
