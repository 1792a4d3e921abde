import MiniC.Json.Reader
import MiniC.WorkRecord

/-!
Work records as JSON documents. A field that is absent has its value in the blank
record, and a field that is unknown is ignored.
-/

namespace MiniC.WorkRecord

def fieldNames : List String :=
  ["isPow", "isBounty", "powHash", "targetWas", "storage", "personalized_ints"]

def byte? (json : Json) : Option UInt8 :=
  (json.between? 0 255).map fun number => UInt8.ofNat number.toNat

def word? (json : Json) : Option Int32 := (json.between? (-2147483648) 2147483647).map Int32.ofInt

def ofJson? (json : Json) : Option WorkRecord := do
  let [isPow?, isBounty?, powHash?, target?, storage?, ints?] ← json.fields? fieldNames | none
  return ⟨← Json.getD Json.bool? blank.isPow isPow?, ← Json.getD Json.bool? blank.isBounty isBounty?,
    ← Json.getD (Json.vector? 16 byte?) blank.powHash powHash?,
    ← Json.getD (Json.vector? 16 byte?) blank.target target?,
    ← Json.getD (Json.list? word?) blank.storage storage?,
    ← Json.getD (Json.vector? 12 word?) blank.personalInts ints?⟩

def ofByte (byte : UInt8) : Json := .ofInt byte.toNat

def ofWord (word : Int32) : Json := .ofInt word.toInt

def toJson (record : WorkRecord) : Json :=
  .record (fieldNames.zip
    [.bool record.isPow, .bool record.isBounty, .array (record.powHash.toList.map ofByte),
      .array (record.target.toList.map ofByte), .array (record.storage.map ofWord),
      .array (record.personalInts.toList.map ofWord)])

def ofText? (text : String) : Option WorkRecord := (Json.parse? text).bind ofJson?

def text (record : WorkRecord) : String := record.toJson.pretty

end MiniC.WorkRecord
