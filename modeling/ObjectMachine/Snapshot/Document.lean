import ObjectMachine.Snapshot
import ObjectMachine.Json.Reader
/-!
Snapshots as JSON documents. Data becomes the corresponding document, a map an object under the
texts of its keys; what has no corresponding document becomes an object with one member whose name
starts with a dollar sign.
-/
namespace ObjectMachine.Snapshot

/-- An object with one member that tells what kind of value it stands for. -/
def tagged (tag : String) (doc : Json) : Json := .obj [(tag, doc)]

mutual

/-- The document of a value. -/
def toJson : Snapshot → Json
  | null => .null
  | bool b => .bool b
  | int i => .int i.toInt
  | num x => if x.isFinite then .num x else .null
  | str s => .str s
  | list items => .arr (itemsToJson items)
  | map entries => .obj (entriesToJson [] entries)
  | range start stop step =>
    tagged "$range" (.arr [.int start.toInt, .int stop.toInt, .int step.toInt])
  | type name => tagged "$type" (.str name)
  | function name => tagged "$function" (.str name)
  | error typeName message =>
    tagged "$error" (.obj [("type", .str typeName), ("message", .str message)])
  | plain typeName members =>
    tagged "$instance"
      (.obj [("type", .str typeName), ("members", .obj (membersToJson [] members))])
  | iterator => tagged "$iterator" (.bool true)
  | generator name => tagged "$generator" (.str name)
  | cycle placeholder => tagged "$cycle" (.str placeholder)

/-- The documents of the items of a list. -/
def itemsToJson : List Snapshot → List Json
  | [] => []
  | v :: later => toJson v :: itemsToJson later

/-- The members for the entries of a map, after those in `done`. Keys with the same text share a
member, which holds the last of their values. -/
def entriesToJson (done : List (String × Json)) : List (Snapshot × Snapshot) → List (String × Json)
  | [] => done
  | (key, v) :: later => entriesToJson (Json.putMember (display key) (toJson v) done) later

/-- The members for the members of an object, after those in `done`. -/
def membersToJson (done : List (String × Json)) : List (String × Snapshot) → List (String × Json)
  | [] => done
  | (name, v) :: later => membersToJson (Json.putMember name (toJson v) done) later

end

end ObjectMachine.Snapshot
